import ContextBroker.Json.Record
import ContextBroker.Proofs.Json.Spelling

set_option autoImplicit false

/-! # Forms that lose nothing

A form is faithful to a value when it writes the value as a tree that has a spelling and reads that
tree as the value (`Form.Faithful`); then the value comes back from its text
(`Form.Faithful.ofText_toText`). There is one lemma for each way to make a form. In a record a value
may also be left out, as long as that is what a field left out stands for (`Record.Faithful`). -/

namespace ContextBroker.Json

/-- A form that writes a value so that it is read back. -/
structure Form.Faithful {α : Type} (f : Form α) (a : α) : Prop where
  spelled : (f.write a).Spelled
  read_write : f.read (f.write a) = .ok a

namespace Form

variable {α β : Type}

/-- **From the tree to the text**: a value comes back from its text. -/
theorem Faithful.ofText_toText {f : Form α} {a : α} (h : f.Faithful a) :
    f.ofText (f.toText a) = .ok a := by
  rw [ofText, toText, String.toList_ofList, ofChars, chars, Document.ofChars_chars h.spelled]
  simp [h.read_write]

/-! ## Simple forms -/

theorem faithful_text (s : String) : text.Faithful s := ⟨rfl, rfl⟩

/-- Natural numbers are read back up to 64 bits. -/
theorem faithful_natural {n : Nat} (hn : n ≤ Number.largestWord) : natural.Faithful n where
  spelled := Number.spelled_ofNat n
  read_write := by
    have hnatural : (Number.ofNat n).natural? = some n := by
      simp [Number.natural?, Number.ofNat, Digits.value_toDigits]
    simp [natural, Tree.natural, hnatural, Option.filter_some, hn]

theorem Faithful.refine {f : Form α} {meant : α → Option β} {back : β → α} {b : β}
    (h : f.Faithful (back b)) (hmeant : meant (back b) = some b) :
    (f.refine meant back).Faithful b where
  spelled := h.spelled
  read_write := by simp [Form.refine, h.read_write, hmeant]

/-- A value that is not written as `null` is not taken for none. -/
theorem Faithful.optional {f : Form α} {a : α} (h : f.Faithful a) (hnull : f.write a ≠ .null) :
    f.optional.Faithful (some a) where
  spelled := h.spelled
  read_write := by
    show f.optional.read (f.write a) = .ok (some a)
    have hread : f.optional.read (f.write a) = (f.read (f.write a)).map some := by
      simp [Form.optional]
    rw [hread, h.read_write]
    rfl

/-- A name that no other value has. -/
theorem faithful_variant {name : α → String} {all : List α} {a : α} (ha : a ∈ all)
    (hname : ∀ b ∈ all, name b = name a → b = a) : (variant name all).Faithful a where
  spelled := rfl
  read_write := by
    have hfind : (all.find? fun b => name b = name a) = some a := by
      cases h : all.find? fun b => name b = name a with
      | none => simpa using List.find?_eq_none.1 h a ha
      | some b =>
        have hb : name b = name a := by simpa using List.find?_some h
        rw [hname b (List.mem_of_find?_eq_some h) hb]
    simp [variant, hfind]

end Form

/-! ## Records -/

namespace Slots

/-- The fields of a record that are written. -/
def written : (fs : List Field) → Record fs → Slots fs
  | [], _ => ()
  | f :: fs, (v, r) => (if f.hidden v then none else some v, written fs r)

/-- Members of other names leave a field as it is. -/
theorem putAll_cons {f : Field} {fs : List Field} {ms : List Member}
    (hms : ∀ m ∈ ms, m.1 ≠ some f.name) (slot : Option f.Value) (slots : Slots fs) :
    putAll (f :: fs) (slot, slots) ms = (putAll fs slots ms).map fun slots => (slot, slots) := by
  induction ms generalizing slots with
  | nil => rfl
  | cons m ms ih =>
    obtain ⟨_ | key, t⟩ := m
    · rfl
    · have hkey : key ≠ f.name := fun h => hms (some key, t) (by simp) (by simp [h])
      simp only [putAll, put, if_neg hkey]
      cases put fs slots key t with
      | error e => rfl
      | ok slots => exact ih (fun m hm => hms m (by simp [hm])) slots

end Slots

namespace Record

/-- Values that come back: each field's form is faithful to its value, or the value is left out and
    is what stands for a field left out. -/
def Faithful : (fs : List Field) → Record fs → Prop
  | [], _ => True
  | f :: fs, (v, r) =>
    (if f.hidden v then f.absent = some v else f.form.Faithful v) ∧ Faithful fs r

/-- A record's members have the names of its fields. -/
theorem name_mem_of_mem_members : {fs : List Field} → {r : Record fs} → {m : Member} →
    m ∈ members fs r → ∃ f ∈ fs, m.1 = some f.name
  | f :: fs, (v, r), m, h => by
    rw [members] at h
    have hcases : m = (some f.name, f.form.write v) ∨ m ∈ members fs r := by
      cases hv : f.hidden v <;> simp_all
    obtain rfl | hm := hcases
    · exact ⟨f, by simp, rfl⟩
    · obtain ⟨f', hf', hname⟩ := name_mem_of_mem_members hm
      exact ⟨f', by simp [hf'], hname⟩

theorem membersSpelled : {fs : List Field} → {r : Record fs} → Faithful fs r →
    Tree.MembersSpelled (members fs r)
  | [], _, _ => trivial
  | f :: fs, (v, r), ⟨hv, h⟩ => by
    rw [members]
    cases hhidden : f.hidden v
    · rw [hhidden] at hv
      exact ⟨rfl, hv.spelled, membersSpelled h⟩
    · exact membersSpelled h

/-- The members of a record fill the slots of the fields that are written. -/
theorem putAll_members : {fs : List Field} → {r : Record fs} → (fs.map Field.name).Nodup →
    Faithful fs r → Slots.putAll fs (.empty fs) (members fs r) = .ok (Slots.written fs r)
  | [], _, _, _ => rfl
  | f :: fs, (v, r), hnames, ⟨hv, h⟩ => by
    obtain ⟨hname, hnames⟩ := List.nodup_cons.1 hnames
    have hother : ∀ m ∈ members fs r, m.1 ≠ some f.name := by
      intro m hm heq
      obtain ⟨f', hf', hm⟩ := name_mem_of_mem_members hm
      rw [hm, Option.some.injEq] at heq
      exact hname (List.mem_map.2 ⟨f', hf', heq⟩)
    have hrest (slot : Option f.Value) :
        Slots.putAll (f :: fs) (slot, .empty fs) (members fs r) = .ok (slot, .written fs r) := by
      rw [Slots.putAll_cons hother, putAll_members hnames h]
      rfl
    rw [members, Slots.written]
    cases hhidden : f.hidden v
    · rw [hhidden] at hv
      have hput : Slots.put (f :: fs) (.empty (f :: fs)) f.name (f.form.write v) =
          .ok (some v, .empty fs) := by
        simp [Slots.put, Slots.empty, hv.read_write, Except.map]
      simp [Slots.putAll, hput, hrest]
    · exact hrest none

/-- The fields that are not written are filled in. -/
theorem complete_written : {fs : List Field} → {r : Record fs} → Faithful fs r →
    Slots.complete fs (Slots.written fs r) = .ok r
  | [], _, _ => rfl
  | f :: fs, (v, r), ⟨hv, h⟩ => by
    rw [Slots.written, Slots.complete, complete_written h]
    cases hhidden : f.hidden v <;> simp_all [Except.map]

/-- **A record comes back** when its values do, and its fields have different names. -/
theorem faithful_form {fs : List Field} (hnames : (fs.map Field.name).Nodup) {r : Record fs}
    (h : Faithful fs r) : (form fs).Faithful r where
  spelled := ⟨rfl, membersSpelled h⟩
  read_write := by simp [form, putAll_members hnames h, complete_written h]

end Record

end ContextBroker.Json
