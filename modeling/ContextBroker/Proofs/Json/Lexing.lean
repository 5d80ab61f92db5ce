import ContextBroker.Json.Tree
import ContextBroker.Proofs.Digits

set_option autoImplicit false

/-! # How texts and numbers may be spelled

A text has many spellings between its quotation marks, and a number has some too. However it is
spelled, a text is read as the text it stands for (`tokens_text`), and a number as the number it
stands for, digit by digit (`tokens_number`). What is written is one of the spellings
(`textSpelled_quoted`, `Number.spelledAs_numberChars`). What is read ends where the spelling ends. A
quotation mark says so by itself; a number asks that what follows cannot be taken for more of it
(`Number.Ends`), which no comma, no bracket, no blank and no end of a text can. -/

namespace ContextBroker.Json

/-! ## Quoted text -/

namespace Quoted

/-- How the pieces of a text may be spelled: a character stands for itself, unless it is the
    quotation mark, the backslash or a control character; a letter after a backslash stands for a
    character, and four hexadecimal digits stand for a code unit. -/
inductive Spells : List Piece → List Char → Prop
  | nil : Spells [] []
  | plain {pieces : List Piece} {cs : List Char} (c : Char) (hcontrol : ¬ c.toNat < 0x20)
      (hquote : c ≠ '"') (hbackslash : c ≠ '\\') (h : Spells pieces cs) :
      Spells (.char c :: pieces) (c :: cs)
  | escaped {pieces : List Piece} {cs : List Char} {letter c : Char} (hc : escaped? letter = some c)
      (h : Spells pieces cs) : Spells (.char c :: pieces) ('\\' :: letter :: cs)
  | unit {pieces : List Piece} {cs : List Char} {a b c d : Char} {n : Nat}
      (hn : unit? a b c d = some n) (h : Spells pieces cs) :
      Spells (.ofUnit n :: pieces) ('\\' :: 'u' :: a :: b :: c :: d :: cs)

/-- **A quoted text is read up to its closing mark**, piece by piece. -/
theorem Spells.scan? {pieces : List Piece} {cs : List Char} (h : Spells pieces cs)
    (rest : List Char) : Quoted.scan? (cs ++ '"' :: rest) = some (pieces, rest) := by
  induction h with
  | nil => simp [Quoted.scan?]
  | plain c hcontrol hquote hbackslash h ih =>
    rw [List.cons_append, Quoted.scan?, if_neg (by simp [hcontrol, hbackslash]), ih]
    · rfl
    all_goals simp_all
  | @escaped pieces cs letter c hc h ih =>
    have hu : letter ≠ 'u' := by
      rintro rfl
      simp [escaped?] at hc
    rw [List.cons_append, List.cons_append, Quoted.scan?, hc, ih]
    · rfl
    · simp [hu]
  | unit hn h ih =>
    simp only [List.cons_append]
    rw [Quoted.scan?, hn, ih]
    rfl

/-- The last two digits of an escape give the control character they are made from. -/
theorem unit?_control : ∀ n < 0x20,
    unit? '0' '0' (hexDigit (n / 16)) (hexDigit (n % 16)) = some n := by
  decide

theorem ofUnit_toNat {c : Char} (h : c.toNat < 0x20) : Piece.ofUnit c.toNat = .char c := by
  rw [Piece.ofUnit, if_neg (by omega), Char.ofNat_toNat]

/-- A written character stands for that character. -/
theorem Spells.encodeChar {pieces : List Piece} {cs : List Char} (h : Spells pieces cs) (c : Char) :
    Spells (.char c :: pieces) (Quoted.encodeChar c ++ cs) := by
  unfold Quoted.encodeChar
  split
  case h_8 hquote hbackslash _ _ _ _ _ =>
    split
    case isTrue hcontrol =>
      rw [← ofUnit_toNat hcontrol]
      exact .unit (unit?_control _ hcontrol) h
    case isFalse hcontrol => exact .plain c hcontrol hquote hbackslash h
  all_goals exact .escaped rfl h

/-- A written text stands for that text. -/
theorem spells_encode (cs : List Char) : Spells (cs.map .char) (encode cs) := by
  induction cs with
  | nil => exact .nil
  | cons c cs ih =>
    have h : encode (c :: cs) = encodeChar c ++ encode cs := List.flatMap_cons
    rw [h, List.map_cons]
    exact ih.encodeChar c

/-- Whole characters make up the text they are. -/
theorem join?_map_char (cs : List Char) : join? (cs.map .char) = some cs := by
  induction cs with
  | nil => rfl
  | cons c cs ih => simp [join?, ih]

end Quoted

/-! ## Numbers -/

namespace Number

open Digits

/-- A number that has a spelling. -/
structure Spelled (n : Number) : Prop where
  whole_run : IsRun n.whole
  /-- No zero stands before other digits. -/
  no_zero : n.whole.head? = some '0' → n.whole.length = 1
  fraction_run : ∀ ds ∈ n.fraction, IsRun ds

/-- Whether a text cannot be taken for more of a number that stands before it. -/
def Ends (cs : List Char) : Prop :=
  ∀ c ∈ cs.head?, c.isDigit = false ∧ c ≠ '.' ∧ c ≠ 'e' ∧ c ≠ 'E'

theorem ends_nil : Ends [] := by simp [Ends]

theorem ends_comma (rest : List Char) : Ends (',' :: rest) := by simp [Ends]

theorem ends_closeArray (rest : List Char) : Ends (']' :: rest) := by simp [Ends]

theorem ends_closeObject (rest : List Char) : Ends ('\x7d' :: rest) := by simp [Ends]

theorem spelled_ofNat (n : Nat) : (ofNat n).Spelled where
  whole_run := isRun_toDigits n
  no_zero h := by
    obtain rfl | hn := n.eq_zero_or_pos
    · rfl
    · exact absurd h (head?_toDigits_ne n hn)
  fraction_run := by simp [ofNat]

/-- A run of digits is taken as a whole where no digit follows. -/
theorem digits?_append {ds rest : List Char} (h : IsRun ds) (hrest : Stops rest) :
    digits? (ds ++ rest) = some (ds, rest) := by
  obtain ⟨d, ds', hds, _⟩ := h.exists_cons
  rw [digits?, h.takeWhile_append hrest, h.dropWhile_append hrest, hds]

/-- A run of digits has no sign. -/
theorem sign_append {ds : List Char} (h : IsRun ds) (rest : List Char) :
    sign (ds ++ rest) = (false, ds ++ rest) := by
  rw [sign]
  exact fun cs hcs => h.append_ne rfl rest cs hcs

/-- A run of digits has no sign of an exponent either. -/
theorem exponentSign_append {ds : List Char} (h : IsRun ds) (rest : List Char) :
    exponentSign (ds ++ rest) = (false, ds ++ rest) := by
  rw [exponentSign, sign_append h]
  exact fun cs hcs => h.append_ne rfl rest cs hcs

/-- An exponent after its mark, once its sign is known. -/
theorem exponent?_cons {mark : Char} (hmark : mark = 'e' ∨ mark = 'E') {cs ds rest : List Char}
    {negative : Bool} (hsign : exponentSign cs = (negative, ds ++ rest)) (h : IsRun ds)
    (hrest : Stops rest) : exponent? (mark :: cs) =
      some (some (if negative then -(value ds : Int) else value ds), rest) := by
  simp [exponent?, hmark, hsign, digits?_append h hrest]

/-- How an exponent may be spelled: after either mark, with any sign or none, and with any zeros
    in front; and nothing when there is none. -/
inductive ExponentSpelled : Option Int → List Char → Prop
  | none : ExponentSpelled none []
  | unsigned {mark : Char} {ds : List Char} (hmark : mark = 'e' ∨ mark = 'E') (h : IsRun ds) :
      ExponentSpelled (some (value ds : Int)) (mark :: ds)
  | plus {mark : Char} {ds : List Char} (hmark : mark = 'e' ∨ mark = 'E') (h : IsRun ds) :
      ExponentSpelled (some (value ds : Int)) (mark :: '+' :: ds)
  | minus {mark : Char} {ds : List Char} (hmark : mark = 'e' ∨ mark = 'E') (h : IsRun ds) :
      ExponentSpelled (some (-(value ds : Int))) (mark :: '-' :: ds)

/-- An exponent is read as what it stands for, and none where none is. -/
theorem ExponentSpelled.exponent? {e : Option Int} {cs rest : List Char} (h : ExponentSpelled e cs)
    (hrest : Ends rest) : Number.exponent? (cs ++ rest) = some (e, rest) := by
  have hdigit : Stops rest := fun c hc => (hrest c hc).1
  cases h with
  | none =>
    cases rest with
    | nil => rfl
    | cons c cs =>
      obtain ⟨_, _, he, hE⟩ := hrest c rfl
      simp [Number.exponent?, he, hE]
  | unsigned hmark h => exact exponent?_cons hmark (exponentSign_append h rest) h hdigit
  | @plus mark ds hmark h =>
    have hsign : exponentSign ('+' :: ds ++ rest) = (false, ds ++ rest) := rfl
    exact exponent?_cons hmark hsign h hdigit
  | @minus mark ds hmark h =>
    have hsign : exponentSign ('-' :: ds ++ rest) = (true, ds ++ rest) := rfl
    exact exponent?_cons hmark hsign h hdigit

/-- What may follow the places after the point. -/
theorem ExponentSpelled.head? {e : Option Int} {cs rest : List Char} (h : ExponentSpelled e cs)
    (hrest : Ends rest) : ∀ c ∈ (cs ++ rest).head?, c.isDigit = false ∧ c ≠ '.' := by
  have hmark : ∀ {mark : Char} {cs : List Char}, mark = 'e' ∨ mark = 'E' →
      ∀ c ∈ (mark :: cs).head?, c.isDigit = false ∧ c ≠ '.' := by
    rintro mark cs (rfl | rfl) c hc <;> obtain rfl := Option.some.inj hc <;> decide
  cases h with
  | none => exact fun c hc => ⟨(hrest c hc).1, (hrest c hc).2.1⟩
  | unsigned h _ | plus h _ | minus h _ => exact hmark h

/-- A written exponent stands for that exponent. -/
theorem exponentSpelled_exponentChars (e : Option Int) :
    ExponentSpelled e (e.elim [] Tree.exponentChars) := by
  match e with
  | none => exact .none
  | some (.ofNat n) =>
    have h := ExponentSpelled.unsigned (.inl rfl) (isRun_toDigits n)
    rwa [value_toDigits] at h
  | some (.negSucc n) =>
    have h := ExponentSpelled.minus (.inl rfl) (isRun_toDigits (n + 1))
    rwa [value_toDigits] at h

/-- The places after the point are read as they were written, and none where none were. -/
theorem fraction?_append {f : Option (List Char)} (h : ∀ ds ∈ f, IsRun ds) {rest : List Char}
    (hrest : ∀ c ∈ rest.head?, c.isDigit = false ∧ c ≠ '.') :
    fraction? (f.elim [] ('.' :: ·) ++ rest) = some (f, rest) := by
  match f with
  | none =>
    cases rest with
    | nil => rfl
    | cons c cs => simp [fraction?, (hrest c rfl).2]
  | some ds =>
    have hdigit : Stops rest := fun c hc => (hrest c hc).1
    simp [fraction?, digits?_append (h ds rfl) hdigit]

/-- What may follow the digits before the point. -/
theorem head?_fractionChars (f : Option (List Char)) {rest : List Char}
    (hrest : ∀ c ∈ rest.head?, c.isDigit = false ∧ c ≠ '.') :
    Stops (f.elim [] ('.' :: ·) ++ rest) := by
  match f with
  | none => exact fun c hc => (hrest c hc).1
  | some _ => simp [Stops]

/-- How a number may be spelled. -/
def SpelledAs (n : Number) (cs : List Char) : Prop :=
  n.Spelled ∧ ∃ e, ExponentSpelled n.exponent e ∧
    cs = (if n.negative then ['-'] else []) ++ n.whole ++ n.fraction.elim [] ('.' :: ·) ++ e

/-- A number is written as it may be spelled. -/
theorem spelledAs_numberChars {n : Number} (h : n.Spelled) : n.SpelledAs (Tree.numberChars n) :=
  ⟨h, _, exponentSpelled_exponentChars n.exponent, rfl⟩

/-- **A number is read as what it stands for**, as long as what follows ends it. -/
theorem SpelledAs.scan? {n : Number} {cs : List Char} (h : n.SpelledAs cs) {rest : List Char}
    (hrest : Ends rest) : Number.scan? (cs ++ rest) = some (n, rest) := by
  obtain ⟨h, e, he, rfl⟩ := h
  have hexponent := he.head? hrest
  have hfraction := head?_fractionChars n.fraction hexponent
  have hsign : sign ((if n.negative then ['-'] else []) ++ n.whole ++
      n.fraction.elim [] ('.' :: ·) ++ e ++ rest) =
      (n.negative, n.whole ++ (n.fraction.elim [] ('.' :: ·) ++ (e ++ rest))) := by
    cases hn : n.negative <;> simp only [List.append_assoc]
    · exact sign_append h.whole_run _
    · rfl
  simp only [Number.scan?, hsign, digits?_append h.whole_run hfraction, Option.bind_eq_bind,
    Option.bind_some, fraction?_append h.fraction_run hexponent, he.exponent? hrest]
  rw [if_neg fun hz => hz.2 (h.no_zero hz.1)]
  rfl

/-- A number starts with a minus sign or a digit. -/
theorem SpelledAs.exists_cons {n : Number} {cs : List Char} (h : n.SpelledAs cs) :
    ∃ c cs', cs = c :: cs' ∧ (c = '-' ∨ c.isDigit = true) := by
  obtain ⟨h, e, -, rfl⟩ := h
  obtain ⟨d, ds, hds, hd⟩ := h.whole_run.exists_cons
  cases hn : n.negative with
  | false => exact ⟨d, _, by simp only [hds]; rfl, .inr hd⟩
  | true => exact ⟨'-', _, rfl, .inl rfl⟩

end Number

/-! ## Tokens -/

/-- The tokens of a text are its first token and those of what follows it. -/
theorem tokens_eq (cs : List Char) : tokens cs =
    match Token.next? cs with
    | none => []
    | some (t, rest) => t :: tokens rest := by
  rw [tokens]
  split <;> rename_i h <;> simp [h]

theorem tokens_nil : tokens [] = [] := tokens_eq []

/-- The first token of a text that starts with no blank. -/
theorem tokens_cons {c : Char} {cs rest : List Char} {t : Token} (hc : Token.isSpace c = false)
    (h : Token.scan c cs = (t, rest)) : tokens (c :: cs) = t :: tokens rest := by
  rw [tokens_eq, Token.next?, hc]
  simp [h]

theorem tokens_comma (rest : List Char) : tokens (',' :: rest) = .comma :: tokens rest :=
  tokens_cons rfl rfl

theorem tokens_colon (rest : List Char) : tokens (':' :: rest) = .colon :: tokens rest :=
  tokens_cons rfl rfl

/-- What may stand between tokens. -/
def Blank (cs : List Char) : Prop := ∀ c ∈ cs, c ∈ [' ', '\t', '\n', '\r']

/-- Blanks are no tokens. -/
theorem Blank.tokens_append {w : List Char} (h : Blank w) (cs : List Char) :
    tokens (w ++ cs) = tokens cs := by
  have hnext : Token.next? (w ++ cs) = Token.next? cs := by
    induction w with
    | nil => rfl
    | cons c w ih =>
      have hc : Token.isSpace c = true := by
        simpa [Token.isSpace, or_assoc] using h c List.mem_cons_self
      rw [List.cons_append, Token.next?, if_pos hc]
      exact ih fun c' hc' => h c' (List.mem_cons_of_mem _ hc')
  rw [tokens_eq, hnext, ← tokens_eq]

/-- Blanks end a number. -/
theorem Blank.ends_append {w rest : List Char} (h : Blank w) (hrest : Number.Ends rest) :
    Number.Ends (w ++ rest) := by
  cases w with
  | nil => exact hrest
  | cons c w =>
    have hc := h c List.mem_cons_self
    intro c' hc'
    obtain rfl : c = c' := by simpa using hc'
    simp only [List.mem_cons, List.not_mem_nil, or_false] at hc
    rcases hc with rfl | rfl | rfl | rfl <;> decide

/-- How a text may be spelled; text in which half of a character stands alone is none. -/
def TextSpelled (text : Option String) (cs : List Char) : Prop :=
  ∃ pieces body, Quoted.Spells pieces body ∧ text = (Quoted.join? pieces).map String.ofList ∧
    cs = '"' :: body ++ ['"']

/-- A text is written as it may be spelled. -/
theorem textSpelled_quoted (s : String) : TextSpelled (some s) (Tree.quoted s) :=
  ⟨_, _, Quoted.spells_encode s.toList, by simp [Quoted.join?_map_char], rfl⟩

/-- A text is one token. -/
theorem tokens_text {text : Option String} {cs : List Char} (h : TextSpelled text cs)
    (rest : List Char) : tokens (cs ++ rest) = .string text :: tokens rest := by
  obtain ⟨pieces, body, hbody, rfl, rfl⟩ := h
  refine tokens_cons rfl ?_
  simp [Token.scan, hbody.scan?]

/-- What starts with a minus sign or a digit is read as a number. -/
theorem scan_number {c : Char} {cs rest : List Char} {n : Number} (hc : c = '-' ∨ c.isDigit = true)
    (h : Number.scan? (c :: cs) = some (n, rest)) : Token.scan c cs = (.number n, rest) := by
  unfold Token.scan
  split
  case h_11 => rw [h]
  all_goals exact absurd hc (by decide)

/-- A number is one token, as long as what follows ends it. -/
theorem tokens_number {n : Number} {cs : List Char} (h : n.SpelledAs cs) {rest : List Char}
    (hrest : Number.Ends rest) : tokens (cs ++ rest) = .number n :: tokens rest := by
  have hscan := h.scan? hrest
  obtain ⟨c, cs, rfl, hc⟩ := h.exists_cons
  refine tokens_cons ?_ (scan_number hc hscan)
  simp only [Token.isSpace, Bool.or_eq_false_iff, decide_eq_false_iff_not]
  refine ⟨⟨⟨?_, ?_⟩, ?_⟩, ?_⟩ <;> rintro rfl <;> exact absurd hc (by decide)

end ContextBroker.Json
