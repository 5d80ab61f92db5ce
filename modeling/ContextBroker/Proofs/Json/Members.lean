import ContextBroker.Json.Record
import ContextBroker.Proofs.Json.Spelling

set_option autoImplicit false

/-! # Records are read by name

Of the members of an object only those that have the name of a field matter to a record, and of
these only what stands under each name (`valuesOf`). Read one after the other, members fill the slots
of their fields (`Slots.given`), whatever stands between them: a member that is no field leaves all
slots as they are, and a second one of a field is a duplicate. Each step depends on what was read
before in just this way (`Slots.put_given`), and so does a whole run (`Slots.putAll_given`). So the
record is the one that the members give (`Record.Given`), in whatever order they stand, and the array
of the same values is read as that record too (`Record.ofItems_listed`).

All that is known of a text is which value it spells (`Spells`), so blanks and the ways to spell
texts and numbers make no difference to begin with. -/

namespace ContextBroker.Json

/-- The text is a spelling of the value. -/
def Spells (s : String) (t : Tree) : Prop := Tree.Padded t.SpelledAs s.toList

/-- A form reads a text as the value that the text spells. -/
theorem Form.ofText_spells {α : Type} (form : Form α) {s : String} {t : Tree} (h : Spells s t) :
    form.ofText s = form.read t := by
  rw [ofText, ofChars, Document.ofChars_spelledAs h]
  cases form.read t <;> rfl

/-- Nothing is wrong with the members of an object that has a spelling. -/
theorem Spells.haveWhole {s : String} {ms : List Member} (h : Spells s (.object ms true)) :
    Tree.haveWhole ms = true := by
  obtain ⟨_, _, _, _, hbody, _, _⟩ := h
  exact (Tree.isWhole_object.1 (Tree.isWhole_of_spelledAs _ hbody)).2

/-! ## What stands under a name -/

/-- The values under a name, in the order they stand. -/
def valuesOf (ms : List Member) (name : String) : List Tree :=
  (ms.filter fun m => m.1 = some name).map (·.2)

@[simp] theorem valuesOf_append (l ms : List Member) (name : String) :
    valuesOf (l ++ ms) name = valuesOf l name ++ valuesOf ms name := by
  simp [valuesOf]

/-- A member stands under its own name. -/
theorem valuesOf_self (name : String) (t : Tree) : valuesOf [(some name, t)] name = [t] := by
  simp [valuesOf]

/-- A member stands under no other name. -/
theorem valuesOf_other {key name : String} (h : key ≠ name) (t : Tree) :
    valuesOf [(some key, t)] name = [] := by
  simp [valuesOf, h]

/-- The members that have the name of a field. -/
def known (fs : List Field) (ms : List Member) : List Member :=
  ms.filter fun m => fs.any fun f => m.1 = some f.name

/-- Members that are no fields do not stand under the name of one. -/
theorem valuesOf_known {fs : List Field} {f : Field} (hf : f ∈ fs) (ms : List Member) :
    valuesOf (known fs ms) f.name = valuesOf ms f.name := by
  rw [valuesOf, known, List.filter_filter, valuesOf]
  congr 1
  refine List.filter_congr fun m _ => ?_
  by_cases hm : m.1 = some f.name
  · have hany : (fs.any fun g => m.1 = some g.name) = true :=
      List.any_eq_true.2 ⟨f, hf, by simpa using hm⟩
    simp only [hany, Bool.and_true]
  · simp [hm]

/-- In whatever order members stand, they stand under the same names. -/
theorem valuesOf_perm {fs : List Field} {ms ms' : List Member}
    (h : (known fs ms').Perm (known fs ms)) {f : Field} (hf : f ∈ fs) :
    (valuesOf ms' f.name).Perm (valuesOf ms f.name) := by
  rw [← valuesOf_known hf ms', ← valuesOf_known hf ms]
  exact (h.filter _).map _

/-! ## Slots -/

namespace Slots

/-- The members fit the slots of the fields: each key is a text, and each field has at most one
    member, which is well typed. -/
structure Fits (fs : List Field) (ms : List Member) : Prop where
  keys (m : Member) : m ∈ ms → m.1.isSome = true
  once (f : Field) : f ∈ fs → (valuesOf ms f.name).length ≤ 1
  typed (f : Field) : f ∈ fs → ∀ t ∈ valuesOf ms f.name, ∃ v, f.form.read t = .ok v

variable {f : Field} {fs : List Field} {l ms ms' : List Member} {key : String} {t : Tree}

theorem Fits.tail (h : Fits (f :: fs) ms) : Fits fs ms where
  keys := h.keys
  once g hg := h.once g (List.mem_cons_of_mem _ hg)
  typed g hg := h.typed g (List.mem_cons_of_mem _ hg)

/-- What comes first fits too. -/
theorem Fits.left (h : Fits fs (l ++ ms)) : Fits fs l where
  keys m hm := h.keys m (List.mem_append_left _ hm)
  once g hg := by
    have honce := h.once g hg
    rw [valuesOf_append, List.length_append] at honce
    omega
  typed g hg t ht := h.typed g hg t (by rw [valuesOf_append]; exact List.mem_append_left _ ht)

/-- Members of the fields fit in any order, between any others. -/
theorem Fits.perm (h : Fits fs ms) (hkeys : ∀ m ∈ ms', m.1.isSome = true)
    (hperm : (known fs ms').Perm (known fs ms)) : Fits fs ms' where
  keys := hkeys
  once g hg := by
    rw [(valuesOf_perm hperm hg).length_eq]
    exact h.once g hg
  typed g hg t ht := h.typed g hg t ((valuesOf_perm hperm hg).mem_iff.1 ht)

/-- What the slots hold once the members were read. -/
def given (ms : List Member) : (fs : List Field) → Slots fs
  | [] => ()
  | f :: fs => ((valuesOf ms f.name).head?.bind fun t => (f.form.read t).toOption, given ms fs)

theorem given_nil (fs : List Field) : given [] fs = empty fs := by
  induction fs with
  | nil => rfl
  | cons f fs ih => rw [given, ih]; rfl

/-- What the slots hold is told by what stands under the names of the fields. -/
theorem given_congr (h : ∀ f ∈ fs, valuesOf ms' f.name = valuesOf ms f.name) :
    given ms' fs = given ms fs := by
  induction fs with
  | nil => rfl
  | cons f fs ih =>
    rw [given, given, h f List.mem_cons_self, ih fun g hg => h g (List.mem_cons_of_mem _ hg)]

/-- In whatever order the members stand, and whatever stands between them, the slots hold the
    same. -/
theorem Fits.given_perm (h : Fits fs ms) (hperm : (known fs ms').Perm (known fs ms)) :
    given ms' fs = given ms fs := by
  refine given_congr fun f hf => ?_
  have honce := h.once f hf
  have hvalues := valuesOf_perm hperm hf
  cases hms : valuesOf ms f.name with
  | nil =>
    rw [hms] at hvalues
    exact hvalues.eq_nil
  | cons t ts =>
    obtain rfl : ts = [] := by
      rw [hms, List.length_cons] at honce
      exact List.eq_nil_of_length_eq_zero (by omega)
    rw [hms] at hvalues
    exact List.perm_singleton.1 hvalues

/-- **One step**: a member that fits fills its slot, or it is no field and leaves all as it was. -/
theorem put_given (hnames : (fs.map Field.name).Nodup) (h : Fits fs (l ++ [(some key, t)]))
    (ht : t.isWhole = true) : put fs (given l fs) key t = .ok (given (l ++ [(some key, t)]) fs) := by
  induction fs with
  | nil => simp [put, given, ht]
  | cons f fs ih =>
    obtain ⟨hname, hnames⟩ := List.nodup_cons.1 hnames
    have ih := ih hnames h.tail
    by_cases hkey : key = f.name
    · subst hkey
      -- It is the field's only member, so the slot is still empty.
      have hempty : valuesOf l f.name = [] := by
        have honce := h.once f List.mem_cons_self
        rw [valuesOf_append, valuesOf_self, List.length_append, List.length_singleton] at honce
        exact List.eq_nil_of_length_eq_zero (by omega)
      obtain ⟨v, hv⟩ := h.typed f List.mem_cons_self t (by simp [valuesOf_self])
      have hrest : given (l ++ [(some f.name, t)]) fs = given l fs := by
        refine given_congr fun g hg => ?_
        have hother : f.name ≠ g.name := fun he => hname (he ▸ List.mem_map_of_mem hg)
        rw [valuesOf_append, valuesOf_other hother, List.append_nil]
      simp only [given, hempty, hrest, valuesOf_append, valuesOf_self, put, if_true]
      simp [hv, Except.map, Except.toOption]
    · have hsame : valuesOf (l ++ [(some key, t)]) f.name = valuesOf l f.name := by
        rw [valuesOf_append, valuesOf_other hkey, List.append_nil]
      simp only [given, put, if_neg hkey, ih, hsame]
      rfl

/-- **A whole run**: members that fit fill their slots. -/
theorem putAll_given (hnames : (fs.map Field.name).Nodup) (h : Fits fs (l ++ ms))
    (hms : Tree.haveWhole ms = true) : putAll fs (given l fs) ms = .ok (given (l ++ ms) fs) := by
  induction ms generalizing l with
  | nil => simp [putAll]
  | cons m ms ih =>
    obtain ⟨hm, hrest⟩ := Tree.haveWhole_cons.1 hms
    obtain ⟨_ | key, t⟩ := m
    · have hkey := h.keys (none, t) (by simp)
      cases hkey
    · have hsplit : l ++ (some key, t) :: ms = l ++ [(some key, t)] ++ ms := by simp
      rw [hsplit] at h ⊢
      simp only [putAll, put_given hnames h.left hm]
      exact ih h hrest

/-- Before the first member all slots are empty. -/
theorem putAll_empty (hnames : (fs.map Field.name).Nodup) (h : Fits fs ms)
    (hms : Tree.haveWhole ms = true) : putAll fs (.empty fs) ms = .ok (given ms fs) := by
  rw [← given_nil]
  exact putAll_given (l := []) hnames h hms

/-- A second member of a field is a duplicate, whatever its value. -/
theorem put_duplicate (h : Fits fs l) (hf : f ∈ fs) (hl : valuesOf l f.name ≠ []) (t : Tree) :
    put fs (given l fs) f.name t = .error (.duplicate f.name) := by
  induction fs with
  | nil => cases hf
  | cons g fs ih =>
    by_cases hkey : f.name = g.name
    · rw [hkey] at hl ⊢
      obtain ⟨t', ts, hvalues⟩ := List.exists_cons_of_ne_nil hl
      obtain ⟨v, hv⟩ := h.typed g List.mem_cons_self t' (by simp [hvalues])
      simp [put, given, hvalues, hv, Except.toOption]
    · have hf : f ∈ fs := (List.mem_cons.1 hf).resolve_left fun he => hkey (he ▸ rfl)
      simp only [put, given, if_neg hkey, ih h.tail hf]
      rfl

/-- Members are read one after the other. -/
theorem putAll_append (slots : Slots fs) (l ms : List Member) :
    putAll fs slots (l ++ ms) = (putAll fs slots l).bind fun slots => putAll fs slots ms := by
  induction l generalizing slots with
  | nil => rfl
  | cons m l ih =>
    obtain ⟨_ | key, t⟩ := m
    · rfl
    · simp only [List.cons_append, putAll]
      cases put fs slots key t with
      | error e => rfl
      | ok slots => exact ih slots

end Slots

/-! ## Records -/

namespace Record

/-- The record that members give: each field has the value that its member is read as, or what
    stands for a field left out. -/
def Given (ms : List Member) : (fs : List Field) → Record fs → Prop
  | [], _ => True
  | f :: fs, (v, r) =>
    ((∃ t ∈ valuesOf ms f.name, f.form.read t = .ok v) ∨
      (valuesOf ms f.name = [] ∧ f.absent = some v)) ∧ Given ms fs r

/-- The items are the record's values in the order of its fields. Fields at the end may be left out
    when their value is what stands for a field left out. -/
def Listed : (fs : List Field) → Record fs → List Tree → Prop
  | [], _, items => items = []
  | f :: fs, (v, r), t :: ts => f.form.read t = .ok v ∧ Listed fs r ts
  | f :: fs, (v, r), [] => f.absent = some v ∧ Listed fs r []

variable {f : Field} {fs before after : List Field} {ms : List Member}

/-- Members that have what must not be left out give a record. -/
theorem exists_given (h : Slots.Fits fs ms)
    (hrequired : ∀ f ∈ fs, f.absent = none → valuesOf ms f.name ≠ []) : ∃ r, Given ms fs r := by
  induction fs with
  | nil => exact ⟨(), trivial⟩
  | cons f fs ih =>
    obtain ⟨r, hr⟩ := ih h.tail fun g hg => hrequired g (List.mem_cons_of_mem _ hg)
    cases hvalues : valuesOf ms f.name with
    | nil =>
      cases habsent : f.absent with
      | none => exact absurd hvalues (hrequired f List.mem_cons_self habsent)
      | some v => exact ⟨(v, r), .inr ⟨hvalues, habsent⟩, hr⟩
    | cons t ts =>
      have ht : t ∈ valuesOf ms f.name := by simp [hvalues]
      obtain ⟨v, hv⟩ := h.typed f List.mem_cons_self t ht
      exact ⟨(v, r), .inl ⟨t, ht, hv⟩, hr⟩

/-- The slots are completed to the record that the members give. -/
theorem complete_given (h : Slots.Fits fs ms) {r : Record fs} (hr : Given ms fs r) :
    Slots.complete fs (Slots.given ms fs) = .ok r := by
  induction fs with
  | nil => rfl
  | cons f fs ih =>
    obtain ⟨v, r⟩ := r
    obtain ⟨hv, hr⟩ := hr
    have hslot : (((valuesOf ms f.name).head?.bind fun t => (f.form.read t).toOption) <|>
        f.absent) = some v := by
      rcases hv with ⟨t, ht, hv⟩ | ⟨hvalues, habsent⟩
      · -- The field has no other member.
        have hvalues : valuesOf ms f.name = [t] := by
          have honce := h.once f List.mem_cons_self
          generalize valuesOf ms f.name = values at ht honce
          match values with
          | [u] => rw [List.mem_singleton.1 ht]
          | _ :: _ :: _ => simp at honce
        simp [hvalues, hv, Except.toOption]
      · simp [hvalues, habsent]
    simp only [Slots.complete, Slots.given, hslot, ih h.tail hr]
    rfl

/-- What is missing first is what the error names. -/
theorem complete_missing (h : Slots.Fits (before ++ f :: after) ms) (habsent : f.absent = none)
    (hf : valuesOf ms f.name = [])
    (hbefore : ∀ g ∈ before, g.absent = none → valuesOf ms g.name ≠ []) :
    Slots.complete _ (Slots.given ms (before ++ f :: after)) = .error (.missing f.name) := by
  induction before with
  | nil => simp [Slots.complete, Slots.given, hf, habsent]
  | cons g before ih =>
    have ih := ih h.tail fun g' hg' => hbefore g' (List.mem_cons_of_mem _ hg')
    obtain ⟨v, hslot⟩ : ∃ v, (((valuesOf ms g.name).head?.bind fun t =>
        (g.form.read t).toOption) <|> g.absent) = some v := by
      cases hvalues : valuesOf ms g.name with
      | nil =>
        cases hg : g.absent with
        | none => exact absurd hvalues (hbefore g List.mem_cons_self hg)
        | some v => exact ⟨v, rfl⟩
      | cons t ts =>
        obtain ⟨v, hv⟩ := h.typed g List.mem_cons_self t (by simp [hvalues])
        exact ⟨v, by simp [hv, Except.toOption]⟩
    simp only [List.cons_append, Slots.complete, Slots.given, hslot]
    rw [ih]
    rfl

/-- An array of the values of a record is read as the record. -/
theorem ofItems_listed {r : Record fs} {items : List Tree} (h : Listed fs r items) :
    ofItems fs items true = .ok r := by
  induction fs generalizing items with
  | nil =>
    obtain rfl : items = [] := h
    rfl
  | cons f fs ih =>
    obtain ⟨v, r⟩ := r
    cases items with
    | nil =>
      obtain ⟨habsent, hrest⟩ := h
      simp only [ofItems, if_true, habsent, ih hrest]
      rfl
    | cons t ts =>
      obtain ⟨hv, hrest⟩ := h
      simp only [ofItems, hv, ih hrest]
      rfl

end Record

end ContextBroker.Json
