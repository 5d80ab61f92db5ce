import ContextBroker.Proofs.Json.Lexing

set_option autoImplicit false

/-! # A value is read from any spelling

A value may be spelled with any blanks between its tokens, and each of its texts and numbers in its
own ways (`Tree.SpelledAs`). However it is spelled, reading cuts the text into the value's tokens
(`Tree.tokens_spelledAs`), whatever follows. Taken one by one they build the tree again
(`Tree.foldl_tokens`), whatever brackets are open around it. So a value is what is read from each of
its spellings (`Document.ofChars_spelledAs`), and one of these is how it is written
(`Tree.spelledAs_chars`).

The brackets of a tree make the recursion: each statement is proved together with the one for the
items of an array and the one for the members of an object. -/

namespace ContextBroker.Json

namespace Tree

mutual

/-- Whether a value has a spelling: nothing in it is broken, and its texts and its numbers are
    some. -/
def Spelled : Tree → Prop
  | .null | .bool _ => True
  | .number n => n.Spelled
  | .string text => text.isSome
  | .array items closed => closed ∧ AllSpelled items
  | .object members closed => closed ∧ MembersSpelled members
  | .broken => False

/-- Whether some values have a spelling. -/
def AllSpelled : List Tree → Prop
  | [] => True
  | t :: ts => t.Spelled ∧ AllSpelled ts

/-- Whether some members have a spelling. -/
def MembersSpelled : List (Option String × Tree) → Prop
  | [] => True
  | (key, t) :: ms => key.isSome ∧ t.Spelled ∧ MembersSpelled ms

end

/-- A spelling with blanks around it. -/
def Padded (spells : List Char → Prop) (cs : List Char) : Prop :=
  ∃ w body w', Blank w ∧ spells body ∧ Blank w' ∧ cs = w ++ body ++ w'

mutual

/-- How a value may be spelled. -/
def SpelledAs : Tree → List Char → Prop
  | .null, cs => cs = "null".toList
  | .bool true, cs => cs = "true".toList
  | .bool false, cs => cs = "false".toList
  | .number n, cs => n.SpelledAs cs
  | .string text, cs => TextSpelled text cs
  | .array items closed, cs =>
    closed ∧ ∃ body, ItemsSpelledAs items body ∧ cs = '[' :: body ++ [']']
  | .object members closed, cs =>
    closed ∧ ∃ body, MembersSpelledAs members body ∧ cs = '\x7b' :: body ++ ['\x7d']
  | .broken, _ => False

/-- How values may be spelled with commas between them. -/
def ItemsSpelledAs : List Tree → List Char → Prop
  | [], cs => Blank cs
  | [t], cs => Padded t.SpelledAs cs
  | t :: ts, cs => ∃ item rest, Padded t.SpelledAs item ∧ ItemsSpelledAs ts rest ∧
    cs = item ++ ',' :: rest

/-- How members may be spelled with commas between them. -/
def MembersSpelledAs : List (Option String × Tree) → List Char → Prop
  | [], cs => Blank cs
  | [(key, t)], cs => ∃ name value, Padded (TextSpelled key) name ∧ Padded t.SpelledAs value ∧
    cs = name ++ ':' :: value
  | (key, t) :: ms, cs => ∃ name value rest, Padded (TextSpelled key) name ∧
    Padded t.SpelledAs value ∧ MembersSpelledAs ms rest ∧ cs = name ++ ':' :: value ++ ',' :: rest

end

mutual

/-- The tokens of a value. -/
def tokens : Tree → List Token
  | .null => [.null]
  | .bool b => [.bool b]
  | .number n => [.number n]
  | .string text => [.string text]
  | .array items _ => .openArray :: itemsTokens items ++ [.closeArray]
  | .object members _ => .openObject :: membersTokens members ++ [.closeObject]
  | .broken => []

/-- The tokens of values with commas between them. -/
def itemsTokens : List Tree → List Token
  | [] => []
  | [t] => t.tokens
  | t :: ts => t.tokens ++ .comma :: itemsTokens ts

/-- The tokens of members with commas between them. -/
def membersTokens : List (Option String × Tree) → List Token
  | [] => []
  | [(key, t)] => .string key :: .colon :: t.tokens
  | (key, t) :: ms => .string key :: .colon :: t.tokens ++ .comma :: membersTokens ms

end

/-! ## From the text to the tokens -/

/-- A spelling may do without blanks around it. -/
theorem Padded.bare {spells : List Char → Prop} {cs : List Char} (h : spells cs) :
    Padded spells cs :=
  ⟨[], cs, [], by simp [Blank], h, by simp [Blank], by simp⟩

/-- What is cut into certain tokens, whatever follows, is cut into them also with blanks around. -/
theorem Padded.tokens_append {spells : List Char → Prop} {ts : List Token}
    (htokens : ∀ {body rest}, spells body → Number.Ends rest →
      Json.tokens (body ++ rest) = ts ++ Json.tokens rest)
    {cs rest : List Char} (h : Padded spells cs) (hrest : Number.Ends rest) :
    Json.tokens (cs ++ rest) = ts ++ Json.tokens rest := by
  obtain ⟨w, body, w', hw, hbody, hw', rfl⟩ := h
  calc Json.tokens (w ++ body ++ w' ++ rest)
      = Json.tokens (w ++ (body ++ (w' ++ rest))) := by simp
    _ = Json.tokens (body ++ (w' ++ rest)) := hw.tokens_append _
    _ = ts ++ Json.tokens (w' ++ rest) := htokens hbody (hw'.ends_append hrest)
    _ = ts ++ Json.tokens rest := by rw [hw'.tokens_append]

/-- A key is one token, also with blanks around it. -/
theorem tokens_key {key : Option String} {cs : List Char} (h : Padded (TextSpelled key) cs)
    (rest : List Char) :
    Json.tokens (cs ++ ':' :: rest) = .string key :: .colon :: Json.tokens rest := by
  have hends : Number.Ends (':' :: rest) := by simp [Number.Ends]
  have htext : Json.tokens (cs ++ ':' :: rest) = [.string key] ++ Json.tokens (':' :: rest) :=
    h.tokens_append (fun hbody _ => tokens_text hbody _) hends
  rw [htext, tokens_colon]
  rfl

mutual

/-- **A spelled value is cut into its tokens**, whatever follows, as long as it ends a number. -/
theorem tokens_spelledAs : (t : Tree) → ∀ {cs rest : List Char}, t.SpelledAs cs →
    Number.Ends rest → Json.tokens (cs ++ rest) = t.tokens ++ Json.tokens rest
  | .null, _, _, rfl, _ => tokens_cons rfl rfl
  | .bool true, _, _, rfl, _ => tokens_cons rfl rfl
  | .bool false, _, _, rfl, _ => tokens_cons rfl rfl
  | .number _, _, _, h, hrest => tokens_number h hrest
  | .string _, _, rest, h, _ => tokens_text h rest
  | .array items true, cs, rest, h, _ => by
    obtain ⟨-, body, hbody, rfl⟩ := h
    have hclose : Json.tokens (']' :: rest) = .closeArray :: Json.tokens rest :=
      tokens_cons rfl rfl
    have hitems := tokens_itemsSpelledAs items hbody (Number.ends_closeArray rest)
    have hopen : Json.tokens ('[' :: (body ++ ']' :: rest)) =
        .openArray :: Json.tokens (body ++ ']' :: rest) := tokens_cons rfl rfl
    simp [tokens, hopen, hitems, hclose]
  | .object members true, cs, rest, h, _ => by
    obtain ⟨-, body, hbody, rfl⟩ := h
    have hclose : Json.tokens ('\x7d' :: rest) = .closeObject :: Json.tokens rest :=
      tokens_cons rfl rfl
    have hmembers := tokens_membersSpelledAs members hbody (Number.ends_closeObject rest)
    have hopen : Json.tokens ('\x7b' :: (body ++ '\x7d' :: rest)) =
        .openObject :: Json.tokens (body ++ '\x7d' :: rest) := tokens_cons rfl rfl
    simp [tokens, hopen, hmembers, hclose]

theorem tokens_itemsSpelledAs : (ts : List Tree) → ∀ {cs rest : List Char}, ItemsSpelledAs ts cs →
    Number.Ends rest → Json.tokens (cs ++ rest) = itemsTokens ts ++ Json.tokens rest
  | [], _, rest, h, _ => h.tokens_append rest
  | [t], _, _, h, hrest => h.tokens_append (tokens_spelledAs t) hrest
  | t :: t' :: ts, _, rest, ⟨item, others, hitem, hothers, hcs⟩, hrest => by
    have ht := hitem.tokens_append (tokens_spelledAs t) (Number.ends_comma (others ++ rest))
    have hts := tokens_itemsSpelledAs (t' :: ts) hothers hrest
    simp [hcs, itemsTokens, ht, tokens_comma, hts]

theorem tokens_membersSpelledAs : (ms : List Member) → ∀ {cs rest : List Char},
    MembersSpelledAs ms cs → Number.Ends rest →
      Json.tokens (cs ++ rest) = membersTokens ms ++ Json.tokens rest
  | [], _, rest, h, _ => h.tokens_append rest
  | [(key, t)], _, rest, ⟨name, value, hname, hvalue, hcs⟩, hrest => by
    have ht := hvalue.tokens_append (tokens_spelledAs t) hrest
    simp [hcs, membersTokens, tokens_key hname, ht]
  | (key, t) :: m :: ms, _, rest, ⟨name, value, others, hname, hvalue, hothers, hcs⟩, hrest => by
    have ht := hvalue.tokens_append (tokens_spelledAs t) (Number.ends_comma (others ++ rest))
    have hms := tokens_membersSpelledAs (m :: ms) hothers hrest
    simp [hcs, membersTokens, tokens_key hname, ht, tokens_comma, hms]

end

/-! ## From the tokens to the tree -/

@[simp] theorem isWhole_array {items : List Tree} {closed : Bool} :
    (array items closed).isWhole = true ↔ closed = true ∧ areWhole items = true := by
  simp [isWhole]

@[simp] theorem isWhole_object {members : List Member} {closed : Bool} :
    (object members closed).isWhole = true ↔ closed = true ∧ haveWhole members = true := by
  simp [isWhole]

@[simp] theorem areWhole_cons {t : Tree} {ts : List Tree} :
    areWhole (t :: ts) = true ↔ t.isWhole = true ∧ areWhole ts = true := by
  simp [areWhole]

@[simp] theorem haveWhole_cons {m : Member} {ms : List Member} :
    haveWhole (m :: ms) = true ↔ m.2.isWhole = true ∧ haveWhole ms = true := by
  simp [haveWhole]

theorem haveWhole_append {l ms : List Member} :
    haveWhole (l ++ ms) = true ↔ haveWhole l = true ∧ haveWhole ms = true := by
  induction l with
  | nil => simp [haveWhole]
  | cons m l ih => simp [ih, and_assoc]

/-- A value has a first token, and it closes no array. -/
theorem exists_tokens_eq_cons : {t : Tree} → t.isWhole = true →
    ∃ first rest, t.tokens = first :: rest ∧ first ≠ .closeArray
  | .null, _ | .bool _, _ | .number _, _ | .string _, _ => ⟨_, [], rfl, by simp⟩
  | .array _ _, _ | .object _ _, _ => ⟨_, _, rfl, by simp⟩

/-- Values with commas between them have a first token too, when there are any. -/
theorem exists_itemsTokens_eq_cons {t : Tree} (h : t.isWhole = true) (ts : List Tree) :
    ∃ first rest, itemsTokens (t :: ts) = first :: rest ∧ first ≠ .closeArray := by
  obtain ⟨first, rest, ht, hfirst⟩ := exists_tokens_eq_cons h
  cases ts with
  | nil => exact ⟨first, rest, ht, hfirst⟩
  | cons t' ts =>
    exact ⟨first, rest ++ .comma :: itemsTokens (t' :: ts), by simp [itemsTokens, ht], hfirst⟩

/-- After an opening bracket the first item is awaited as any other is. -/
theorem step_firstItem {token : Token} (h : token ≠ .closeArray) (outer : List Frame) :
    Partial.step (.firstItem outer) token = Partial.step (.value (.item [] :: outer)) token := by
  cases token <;> first | rfl | exact absurd rfl h

mutual

/-- **The tokens of a value build the value**, in whatever place one is awaited. -/
theorem foldl_tokens : (t : Tree) → t.isWhole = true → ∀ outer : List Frame,
    t.tokens.foldl Partial.step (.value outer) = .place t outer
  | .null, _, _ | .bool _, _, _ | .number _, _, _ | .string _, _, _ => rfl
  | .array [] true, _, _ => rfl
  | .array (t :: ts) true, h, outer => by
    have h := (isWhole_array.1 h).2
    obtain ⟨first, rest, hcons, hfirst⟩ := exists_itemsTokens_eq_cons (areWhole_cons.1 h).1 ts
    have hitems := foldl_itemsTokens (t :: ts) (by simp) h [] outer
    rw [hcons, List.foldl_cons, ← step_firstItem hfirst] at hitems
    rw [tokens, hcons, List.cons_append, List.foldl_cons, List.foldl_append, List.foldl_cons]
    show Partial.step (rest.foldl Partial.step (Partial.step (.firstItem outer) first))
      .closeArray = _
    rw [hitems]
    simp [Partial.step]
  | .object [] true, _, _ => rfl
  | .object (m :: ms) true, h, outer => by
    have hmembers := foldl_membersTokens (m :: ms) (by simp) (isWhole_object.1 h).2 true [] outer
    rw [tokens, List.cons_append, List.foldl_cons, List.foldl_append]
    show Partial.step ((membersTokens (m :: ms)).foldl Partial.step (.nextKey true [] outer))
      .closeObject = _
    rw [hmembers]
    simp [Partial.step]

theorem foldl_itemsTokens : (ts : List Tree) → ts ≠ [] → areWhole ts = true →
    ∀ (done : List Tree) (outer : List Frame),
      (itemsTokens ts).foldl Partial.step (.value (.item done :: outer)) =
        .nextItem (ts.reverse ++ done) outer
  | [t], _, h, done, outer => foldl_tokens t (areWhole_cons.1 h).1 (.item done :: outer)
  | t :: t' :: ts, _, h, done, outer => by
    obtain ⟨h, h'⟩ := areWhole_cons.1 h
    have ht := foldl_tokens t h (.item done :: outer)
    have hts := foldl_itemsTokens (t' :: ts) (by simp) h' (t :: done) outer
    simp only [itemsTokens, List.foldl_append, ht, List.foldl_cons]
    show (itemsTokens (t' :: ts)).foldl Partial.step (.value (.item (t :: done) :: outer)) = _
    simp [hts]

theorem foldl_membersTokens : (ms : List Member) → ms ≠ [] → haveWhole ms = true →
    ∀ (first : Bool) (done : List Member) (outer : List Frame),
      (membersTokens ms).foldl Partial.step (.nextKey first done outer) =
        .nextMember (ms.reverse ++ done) outer
  | [(key, t)], _, h, first, done, outer =>
    foldl_tokens t (haveWhole_cons.1 h).1 (.member done key :: outer)
  | (key, t) :: m :: ms, _, h, first, done, outer => by
    obtain ⟨h, h'⟩ := haveWhole_cons.1 h
    have ht := foldl_tokens t h (.member done key :: outer)
    have hms := foldl_membersTokens (m :: ms) (by simp) h' false ((key, t) :: done) outer
    simp only [membersTokens, List.cons_append, List.foldl_cons, List.foldl_append]
    show (membersTokens (m :: ms)).foldl Partial.step (Partial.step
      (t.tokens.foldl Partial.step (.value (.member done key :: outer))) .comma) = _
    rw [ht]
    show (membersTokens (m :: ms)).foldl Partial.step (.nextKey false ((key, t) :: done) outer) = _
    simp [hms]

end

/-! ## What has a spelling -/

mutual

/-- Nothing is wrong with a value that has a spelling. -/
theorem isWhole_of_spelledAs : (t : Tree) → ∀ {cs : List Char}, t.SpelledAs cs → t.isWhole = true
  | .null, _, _ | .bool _, _, _ | .number _, _, _ | .string _, _, _ => rfl
  | .array items _, _, ⟨hclosed, _, hbody, _⟩ =>
    isWhole_array.2 ⟨hclosed, areWhole_of_spelledAs items hbody⟩
  | .object members _, _, ⟨hclosed, _, hbody, _⟩ =>
    isWhole_object.2 ⟨hclosed, haveWhole_of_spelledAs members hbody⟩

theorem areWhole_of_spelledAs : (ts : List Tree) → ∀ {cs : List Char}, ItemsSpelledAs ts cs →
    areWhole ts = true
  | [], _, _ => rfl
  | [t], _, ⟨_, _, _, _, hbody, _, _⟩ => areWhole_cons.2 ⟨isWhole_of_spelledAs t hbody, rfl⟩
  | t :: t' :: ts, _, ⟨_, _, ⟨_, _, _, _, hbody, _, _⟩, hothers, _⟩ =>
    areWhole_cons.2 ⟨isWhole_of_spelledAs t hbody, areWhole_of_spelledAs (t' :: ts) hothers⟩

theorem haveWhole_of_spelledAs : (ms : List Member) → ∀ {cs : List Char},
    MembersSpelledAs ms cs → haveWhole ms = true
  | [], _, _ => rfl
  | [(_, t)], _, ⟨_, _, _, ⟨_, _, _, _, hbody, _, _⟩, _⟩ =>
    haveWhole_cons.2 ⟨isWhole_of_spelledAs t hbody, rfl⟩
  | (_, t) :: m :: ms, _, ⟨_, _, _, _, ⟨_, _, _, _, hbody, _, _⟩, hothers, _⟩ =>
    haveWhole_cons.2 ⟨isWhole_of_spelledAs t hbody, haveWhole_of_spelledAs (m :: ms) hothers⟩

end

mutual

/-- A value is written as it may be spelled. -/
theorem spelledAs_chars : (t : Tree) → t.Spelled → t.SpelledAs t.chars
  | .null, _ => rfl
  | .bool true, _ => rfl
  | .bool false, _ => rfl
  | .number _, h => Number.spelledAs_numberChars h
  | .string (some s), _ => textSpelled_quoted s
  | .array items _, ⟨hclosed, h⟩ => ⟨hclosed, _, itemsSpelledAs_chars items h, rfl⟩
  | .object members _, ⟨hclosed, h⟩ => ⟨hclosed, _, membersSpelledAs_chars members h, rfl⟩

theorem itemsSpelledAs_chars : (ts : List Tree) → AllSpelled ts →
    ItemsSpelledAs ts (itemsChars ts)
  | [], _ => by simp [ItemsSpelledAs, itemsChars, Blank]
  | [t], h => .bare (spelledAs_chars t h.1)
  | t :: t' :: ts, h =>
    ⟨_, _, .bare (spelledAs_chars t h.1), itemsSpelledAs_chars (t' :: ts) h.2, rfl⟩

theorem membersSpelledAs_chars : (ms : List Member) → MembersSpelled ms →
    MembersSpelledAs ms (membersChars ms)
  | [], _ => by simp [MembersSpelledAs, membersChars, Blank]
  | [(some key, t)], h =>
    ⟨_, _, .bare (textSpelled_quoted key), .bare (spelledAs_chars t h.2.1), rfl⟩
  | (some key, t) :: m :: ms, h =>
    ⟨_, _, _, .bare (textSpelled_quoted key), .bare (spelledAs_chars t h.2.1),
      membersSpelledAs_chars (m :: ms) h.2.2, by simp [membersChars]⟩

end

end Tree

/-- **What is read from a spelling of a value is the value.** -/
theorem Document.ofChars_spelledAs {t : Tree} {cs : List Char} (h : Tree.Padded t.SpelledAs cs) :
    Document.ofChars cs = ⟨t, true⟩ := by
  have htokens := h.tokens_append (Tree.tokens_spelledAs t) Number.ends_nil
  obtain ⟨_, _, _, _, hbody, _, _⟩ := h
  rw [List.append_nil, tokens_nil, List.append_nil] at htokens
  rw [Document.ofChars, htokens, Tree.foldl_tokens t (Tree.isWhole_of_spelledAs t hbody)]
  rfl

/-- What is read from a written value is the value. -/
theorem Document.ofChars_chars {t : Tree} (h : t.Spelled) :
    Document.ofChars t.chars = ⟨t, true⟩ :=
  ofChars_spelledAs (.bare (Tree.spelledAs_chars t h))

end ContextBroker.Json
