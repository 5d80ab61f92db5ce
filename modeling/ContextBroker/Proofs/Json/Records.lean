import ContextBroker.Json.Values
import ContextBroker.Proofs.Json.Members
import Mathlib.Data.List.Induction

set_option autoImplicit false

/-! # A record is read the same however it is spelled

What a form of records makes of a text depends on the members that are fields, and not on their
order, on blanks or on what else stands between them (`Form.ReadsRecord`). One argument does for
identities, states and settings, whose forms differ in their fields only (`Form.readsRecord`). -/

namespace ContextBroker.Json

namespace Slots

variable {fs : List Field} {ms : List Member}

/-- Of well typed members that do not fit, one is the first to be a second one of its field. -/
theorem exists_duplicate (hkeys : ∀ m ∈ ms, m.1.isSome = true)
    (htyped : ∀ f ∈ fs, ∀ t ∈ valuesOf ms f.name, ∃ v, f.form.read t = .ok v)
    (hrepeated : ∃ f ∈ fs, 1 < (valuesOf ms f.name).length) :
    ∃ before after, ∃ f ∈ fs, ∃ t, ms = before ++ (some f.name, t) :: after ∧ Fits fs before ∧
      valuesOf before f.name ≠ [] := by
  induction ms using List.reverseRecOn with
  | nil =>
    obtain ⟨f, -, hf⟩ := hrepeated
    exact absurd hf (Nat.not_lt_zero 1)
  | append_singleton l m ih =>
    have hl : ∀ f ∈ fs, ∀ t ∈ valuesOf l f.name, ∃ v, f.form.read t = .ok v :=
      fun f hf t ht => htyped f hf t (by rw [valuesOf_append]; exact List.mem_append_left _ ht)
    have hlkeys : ∀ m ∈ l, m.1.isSome = true := fun m hm => hkeys m (List.mem_append_left _ hm)
    by_cases honce : ∃ f ∈ fs, 1 < (valuesOf l f.name).length
    · obtain ⟨before, after, f, hf, t, rfl, hfits, hbefore⟩ := ih hlkeys hl honce
      exact ⟨before, after ++ [m], f, hf, t, by simp, hfits, hbefore⟩
    · have hfits : Fits fs l := ⟨hlkeys, fun f hf => by
        by_contra hlt
        exact honce ⟨f, hf, by omega⟩, hl⟩
      obtain ⟨f, hf, hlt⟩ := hrepeated
      -- The last member is one of the field, since those before it are at most one.
      have hle := hfits.once f hf
      obtain ⟨_ | key, t⟩ := m
      · have hkey := hkeys (none, t) (by simp)
        cases hkey
      · by_cases hkey : key = f.name
        · subst hkey
          refine ⟨l, [], f, hf, t, rfl, hfits, fun hnil => ?_⟩
          rw [valuesOf_append, valuesOf_self, hnil] at hlt
          simp at hlt
        · rw [valuesOf_append, valuesOf_other hkey, List.append_nil] at hlt
          omega

end Slots

/-- How a form reads records, however they are spelled. A record stands for the value that `make`
    makes of it. -/
structure Form.ReadsRecord {α : Type} (form : Form α) (fs : List Field) (make : Record fs → α) :
    Prop where
  /-- An object is accepted in which each field has at most one member, which is well typed, and
      those that must not be left out have one. Its value is the one that the members give. -/
  accepts {s : String} {ms : List Member} (hs : Spells s (.object ms true))
    (h : Slots.Fits fs ms) (hrequired : ∀ f ∈ fs, f.absent = none → valuesOf ms f.name ≠ []) :
    ∃ r, Record.Given ms fs r ∧ form.ofText s = .ok (make r)
  /-- The order of the members, blanks, and members that are no fields make no difference. -/
  anyhow {s s' : String} {ms ms' : List Member} (hs : Spells s (.object ms true))
    (hs' : Spells s' (.object ms' true)) (h : Slots.Fits fs ms)
    (hkeys : ∀ m ∈ ms', m.1.isSome = true) (hperm : (known fs ms').Perm (known fs ms)) :
    form.ofText s' = form.ofText s
  /-- Nor does it make a difference whether the values stand in an array instead. -/
  array {s s' : String} {ms : List Member} {r : Record fs} {items : List Tree}
    (hs : Spells s (.object ms true)) (h : Slots.Fits fs ms) (hr : Record.Given ms fs r)
    (hs' : Spells s' (.array items true)) (hitems : Record.Listed fs r items) :
    form.ofText s' = form.ofText s ∧ form.ofText s' = .ok (make r)
  /-- The first second member of a field is rejected, whatever its value and whatever follows. -/
  duplicate {s : String} {before after : List Member} {f : Field} {t : Tree}
    (hs : Spells s (.object (before ++ (some f.name, t) :: after) true)) (hf : f ∈ fs)
    (h : Slots.Fits fs before) (hbefore : valuesOf before f.name ≠ []) :
    form.ofText s = .error (.duplicate f.name)
  /-- So an object of well typed members is rejected if a field has more than one. -/
  repeated {s : String} {ms : List Member} (hs : Spells s (.object ms true))
    (hkeys : ∀ m ∈ ms, m.1.isSome = true)
    (htyped : ∀ f ∈ fs, ∀ t ∈ valuesOf ms f.name, ∃ v, f.form.read t = .ok v)
    (hrepeated : ∃ f ∈ fs, 1 < (valuesOf ms f.name).length) :
    ∃ f ∈ fs, 1 < (valuesOf ms f.name).length ∧ form.ofText s = .error (.duplicate f.name)
  /-- Of the fields that must not be left out, the first that is missing is named. -/
  missing {s : String} {ms : List Member} {before after : List Field} {f : Field}
    (hs : Spells s (.object ms true)) (h : Slots.Fits fs ms) (hfs : fs = before ++ f :: after)
    (habsent : f.absent = none) (hf : valuesOf ms f.name = [])
    (hbefore : ∀ g ∈ before, g.absent = none → valuesOf ms g.name ≠ []) :
    form.ofText s = .error (.missing f.name)

section

variable {α : Type} {form : Form α} {fs : List Field} {make : Record fs → α}

/-- Members that fit are read into their slots, and these are completed to a record. -/
theorem Form.ofText_object (hnames : (fs.map Field.name).Nodup)
    (hread : ∀ t, form.read t = ((Record.form fs).read t).map make) {s : String}
    {ms : List Member} (hs : Spells s (.object ms true)) (h : Slots.Fits fs ms) :
    form.ofText s = (Slots.complete fs (Slots.given ms fs)).map make := by
  have hput : Slots.putAll fs (.empty fs) ms = .ok (Slots.given ms fs) :=
    Slots.putAll_empty hnames h hs.haveWhole
  rw [form.ofText_spells hs, hread]
  simp only [Record.form, hput, if_true]

/-- The record is the one that the members give. -/
theorem Form.ofText_given (hnames : (fs.map Field.name).Nodup)
    (hread : ∀ t, form.read t = ((Record.form fs).read t).map make) {s : String}
    {ms : List Member} {r : Record fs} (hs : Spells s (.object ms true)) (h : Slots.Fits fs ms)
    (hr : Record.Given ms fs r) : form.ofText s = .ok (make r) := by
  rw [form.ofText_object hnames hread hs h, Record.complete_given h hr]
  rfl

/-- Members that fit are read up to the first second one of a field. -/
theorem Form.ofText_duplicate (hnames : (fs.map Field.name).Nodup)
    (hread : ∀ t, form.read t = ((Record.form fs).read t).map make) {s : String}
    {before after : List Member} {f : Field} {t : Tree}
    (hs : Spells s (.object (before ++ (some f.name, t) :: after) true)) (hf : f ∈ fs)
    (h : Slots.Fits fs before) (hbefore : valuesOf before f.name ≠ []) :
    form.ofText s = .error (.duplicate f.name) := by
  have hput : Slots.putAll fs (.empty fs) before = .ok (Slots.given before fs) :=
    Slots.putAll_empty hnames h (Tree.haveWhole_append.1 hs.haveWhole).1
  rw [form.ofText_spells hs, hread]
  simp only [Record.form, Slots.putAll_append, hput, Except.bind, Slots.putAll,
    Slots.put_duplicate h hf hbefore]
  rfl

/-- **A form of records reads them however they are spelled**, if the names of their fields
    differ. -/
theorem Form.readsRecord (hnames : (fs.map Field.name).Nodup)
    (hread : ∀ t, form.read t = ((Record.form fs).read t).map make) :
    form.ReadsRecord fs make where
  accepts hs h hrequired := by
    obtain ⟨r, hr⟩ := Record.exists_given h hrequired
    exact ⟨r, hr, form.ofText_given hnames hread hs h hr⟩
  anyhow hs hs' h hkeys hperm := by
    rw [form.ofText_object hnames hread hs' (h.perm hkeys hperm),
      form.ofText_object hnames hread hs h, h.given_perm hperm]
  array {s s' ms r items} hs h hr hs' hitems := by
    have harray : form.ofText s' = .ok (make r) := by
      rw [form.ofText_spells hs', hread]
      simp only [Record.form, Record.ofItems_listed hitems]
      rfl
    exact ⟨harray.trans (form.ofText_given hnames hread hs h hr).symm, harray⟩
  duplicate hs hf h hbefore := form.ofText_duplicate hnames hread hs hf h hbefore
  repeated {s ms} hs hkeys htyped hrepeated := by
    obtain ⟨before, after, f, hf, t, rfl, h, hbefore⟩ :=
      Slots.exists_duplicate hkeys htyped hrepeated
    refine ⟨f, hf, ?_, form.ofText_duplicate hnames hread hs hf h hbefore⟩
    have hpos := List.length_pos_iff.2 hbefore
    have hsplit : before ++ (some f.name, t) :: after =
        before ++ [(some f.name, t)] ++ after := by simp
    rw [hsplit, valuesOf_append, valuesOf_append, valuesOf_self, List.length_append,
      List.length_append, List.length_singleton]
    omega
  missing {s ms before after f} hs h hfs habsent hf hbefore := by
    subst hfs
    rw [form.ofText_object hnames hread hs h, Record.complete_missing h habsent hf hbefore]
    rfl

end

/-! ## What is well typed -/

namespace Form

theorem read_text_eq_ok {t : Tree} {s : String} :
    text.read t = .ok s ↔ t = .string (some s) := by
  constructor
  · intro h
    simp only [text] at h
    split at h
    · rw [Except.ok.inj h]
    · cases h
  · rintro rfl
    rfl

theorem read_optional_text_eq_ok {t : Tree} {v : Option String} :
    text.optional.read t = .ok v ↔ (t = .null ∧ v = none) ∨ ∃ s, t = .string (some s) ∧ v = some s := by
  constructor
  · intro h
    simp only [optional] at h
    split at h
    · exact .inl ⟨rfl, (Except.ok.inj h).symm⟩
    · cases hread : text.read t with
      | error e => rw [hread] at h; cases h
      | ok s =>
        rw [hread] at h
        exact .inr ⟨s, read_text_eq_ok.1 hread, (Except.ok.inj h).symm⟩
  · rintro (⟨rfl, rfl⟩ | ⟨s, rfl, rfl⟩) <;> rfl

theorem read_natural_eq_ok {t : Tree} {n : Nat} :
    natural.read t = .ok n ↔ ∃ m, t = .number m ∧ m.natural? = some n ∧ n ≤ Number.largestWord := by
  constructor
  · intro h
    simp only [natural] at h
    split at h
    · rename_i m
      split at h
      · rename_i v hv
        obtain rfl := Except.ok.inj h
        obtain ⟨hm, hle⟩ := Option.filter_eq_some_iff.1 hv
        exact ⟨m, rfl, hm, by simpa using hle⟩
      · cases h
    · cases h
  · rintro ⟨m, rfl, hm, hle⟩
    have hfilter : (some n).filter (· ≤ Number.largestWord) = some n := by simpa using hle
    simp only [natural, hm, hfilter]

/-- A form whose values stand for others reads what its own values stand for. -/
theorem read_refine_eq_ok {α β : Type} {form : Form α} {meant : α → Option β} {back : β → α}
    {t : Tree} {b : β} :
    (form.refine meant back).read t = .ok b ↔ ∃ a, form.read t = .ok a ∧ meant a = some b := by
  simp only [refine]
  cases form.read t with
  | error e => simp
  | ok a => cases hm : meant a <;> simp [hm]

/-- Numbers of a certain size are those that are spelled with digits only and have the size. -/
theorem read_word_eq_ok {α : Type} {size : Nat} {ofNat : Nat → α} {toNat : α → Nat}
    (hsize : size ≤ Number.largestWord + 1) (hlt : ∀ v, toNat v < size)
    (hto : ∀ n < size, toNat (ofNat n) = n) (hof : ∀ v, ofNat (toNat v) = v) {t : Tree} {v : α} :
    (natural.refine (fun n => if n < size then some (ofNat n) else none) toNat).read t = .ok v ↔
      ∃ m, t = .number m ∧ m.natural? = some (toNat v) := by
  rw [read_refine_eq_ok]
  constructor
  · rintro ⟨n, hn, hmeant⟩
    obtain ⟨m, rfl, hm, -⟩ := read_natural_eq_ok.1 hn
    split at hmeant
    · obtain rfl := Option.some.inj hmeant
      exact ⟨m, rfl, by rw [hm, hto n ‹_›]⟩
    · cases hmeant
  · rintro ⟨m, rfl, hm⟩
    have hv := hlt v
    exact ⟨toNat v, read_natural_eq_ok.2 ⟨m, rfl, hm, by omega⟩, by rw [if_pos hv, hof]⟩

end Form

end ContextBroker.Json

namespace ContextBroker

open Json

namespace Json.Form

theorem read_timestamp_eq_ok {t : Tree} {v : Timestamp} :
    timestamp.read t = .ok v ↔ ∃ s, t = .string (some s) ∧ Timestamp.ofText? s = some v := by
  simp only [timestamp, read_refine_eq_ok, read_text_eq_ok]

end Json.Form

/-! ## Identities, states and settings -/

/-- **A record is read the same however it is spelled.** An identity, a state or settings are read
    from every object whose fields have at most one member each, well typed, where those that must
    not be left out have one. The value is told by these members alone: their order, blanks, and
    what other members stand between them make no difference, and what is left out is filled in. The
    array of the same values is read as the same, whether values at its end that would be filled in
    stand there or not. A second member of a field is rejected as a duplicate; of those that must
    not be left out the first that is missing is named.

    Well typed is a text where a text is asked for, a text or `null` for an instance, an unsigned
    number in digits within 32 or 64 bits, and a text that is a time. -/
theorem Json.spelling_makes_no_difference :
    Identity.form.ReadsRecord Identity.fields
      (fun (ns, name, inst, endpoint, _) => ⟨ns, name, inst, endpoint⟩) ∧
    Sample.form.ReadsRecord Sample.fields
      (fun (payload, time, uncertainty, _) => ⟨payload, time, uncertainty⟩) ∧
    Config.form.ReadsRecord Config.fields (fun (endpoint, timeout, _) => ⟨endpoint, timeout⟩) ∧
    (∀ t s, Form.text.read t = .ok s ↔ t = .string (some s)) ∧
    (∀ t v, Form.text.optional.read t = .ok v ↔
      (t = .null ∧ v = none) ∨ ∃ s, t = .string (some s) ∧ v = some s) ∧
    (∀ t v, Form.word32.read t = .ok v ↔ ∃ m, t = .number m ∧ m.natural? = some v.toNat) ∧
    (∀ t v, Form.word64.read t = .ok v ↔ ∃ m, t = .number m ∧ m.natural? = some v.toNat) ∧
    ∀ t v, Form.timestamp.read t = .ok v ↔
      ∃ s, t = .string (some s) ∧ Timestamp.ofText? s = some v :=
  ⟨Form.readsRecord (by decide) fun _ => rfl, Form.readsRecord (by decide) fun _ => rfl,
    Form.readsRecord (by decide) fun _ => rfl, fun _ _ => Form.read_text_eq_ok,
    fun _ _ => Form.read_optional_text_eq_ok,
    fun _ _ => Form.read_word_eq_ok (by decide) UInt32.toNat_lt
      (fun _ => UInt32.toNat_ofNat_of_lt') fun _ => UInt32.ofNat_toNat,
    fun _ _ => Form.read_word_eq_ok (by decide) UInt64.toNat_lt
      (fun _ => UInt64.toNat_ofNat_of_lt') fun _ => UInt64.ofNat_toNat,
    fun _ _ => Form.read_timestamp_eq_ok⟩

/-- Members of settings, with others before and after the one that is a field. -/
def Config.amongOthers : List Member :=
  [(some "x", .array [.bool true] true), (some "default-timeout-ms", .natural 7),
    (some "x", .null)]

/-- The members may be spelled with blanks around their parts. -/
theorem Config.spells_amongOthers :
    Spells "\x7b \"x\": [true],\n\"default-timeout-ms\" :7 ,\"x\":null\x7d"
      (.object amongOthers true) := by
  have hfirst : Tree.Padded (TextSpelled (some "x")) " \"x\"".toList :=
    ⟨[' '], _, [], by simp [Blank], textSpelled_quoted "x", by simp [Blank], rfl⟩
  have harray : Tree.Padded (Tree.SpelledAs (.array [.bool true] true)) " [true]".toList :=
    ⟨[' '], _, [], by simp [Blank], ⟨rfl, _, .bare rfl, rfl⟩, by simp [Blank], rfl⟩
  have hkey : Tree.Padded (TextSpelled (some "default-timeout-ms"))
      "\n\"default-timeout-ms\" ".toList :=
    ⟨['\n'], _, [' '], by simp [Blank], textSpelled_quoted _, by simp [Blank], rfl⟩
  have hseven : Tree.Padded (Tree.SpelledAs (.natural 7)) "7 ".toList :=
    ⟨[], ['7'], [' '], by simp [Blank], Number.spelledAs_numberChars (Number.spelled_ofNat 7),
      by simp [Blank], rfl⟩
  have hlast : Tree.Padded (TextSpelled (some "x")) "\"x\"".toList :=
    .bare (textSpelled_quoted "x")
  have hnull : Tree.Padded (Tree.SpelledAs .null) "null".toList := .bare rfl
  exact .bare ⟨rfl, _, ⟨_, _, _, hfirst, harray, ⟨_, _, _, hkey, hseven, ⟨_, _, hlast, hnull, rfl⟩,
    rfl⟩, rfl⟩, rfl⟩

/-- Settings that are spelled like this are read as they are from an array. -/
theorem Json.spelling_makes_no_difference_amongOthers :
    let s := "\x7b \"x\": [true],\n\"default-timeout-ms\" :7 ,\"x\":null\x7d"
    Spells s (.object Config.amongOthers true) ∧ Slots.Fits Config.fields Config.amongOthers ∧
      Config.form.ofText "[\"default\",7]" = Config.form.ofText s ∧
      Config.form.ofText s = .ok ⟨"default", 7⟩ := by
  intro s
  have hendpoint : valuesOf Config.amongOthers "default-endpoint-id" = [] := rfl
  have htimeout : valuesOf Config.amongOthers "default-timeout-ms" = [.natural 7] := rfl
  have hseven : Form.word64.read (.natural 7) = .ok 7 := rfl
  have hfits : Slots.Fits Config.fields Config.amongOthers := by
    refine ⟨?_, ?_, ?_⟩
    · simp [Config.amongOthers]
    · intro f hf
      rcases List.mem_cons.1 hf with rfl | hf
      · rw [hendpoint]
        exact Nat.zero_le _
      · obtain rfl := List.mem_singleton.1 hf
        rw [htimeout]
        exact Nat.le_refl _
    · intro f hf t ht
      rcases List.mem_cons.1 hf with rfl | hf
      · rw [hendpoint] at ht
        cases ht
      · obtain rfl := List.mem_singleton.1 hf
        rw [htimeout] at ht
        exact ⟨7, List.mem_singleton.1 ht ▸ hseven⟩
  have hgiven : Record.Given Config.amongOthers Config.fields ("default", 7, ()) :=
    ⟨.inr ⟨hendpoint, rfl⟩, .inl ⟨_, by rw [htimeout]; exact List.mem_singleton_self _, hseven⟩,
      trivial⟩
  have harray : Spells "[\"default\",7]" (.array [.string (some "default"), .natural 7] true) :=
    .bare (Tree.spelledAs_chars _ ⟨rfl, rfl, Number.spelled_ofNat 7, trivial⟩)
  obtain ⟨-, -, hconfig, -⟩ := spelling_makes_no_difference
  obtain ⟨hsame, hread⟩ := hconfig.array Config.spells_amongOthers hfits hgiven harray
    ⟨rfl, hseven, rfl⟩
  exact ⟨Config.spells_amongOthers, hfits, hsame, hsame.symm.trans hread⟩

end ContextBroker
