import ContextBroker.Json.Values
import ContextBroker.Proofs.Json.Faithful
import ContextBroker.Proofs.Timestamp

set_option autoImplicit false

/-! # Values come back from their texts

Identities, states, settings, refresh policies and causes are read from their texts as what they
were written from. A record leaves out what is absent, and reading fills in what was left out; the
two agree because a field is left out only when its value is the one that is filled in. -/

namespace ContextBroker

open Json

/-! ## Numbers and times -/

namespace Json.Form

theorem faithful_word32 (n : UInt32) : word32.Faithful n := by
  have hn : n.toNat < UInt32.size := n.toNat_lt
  refine (faithful_natural ?_).refine ?_
  · have : UInt32.size ≤ Number.largestWord := by decide
    omega
  · rw [if_pos hn, UInt32.ofNat_toNat]

theorem faithful_word64 (n : UInt64) : word64.Faithful n := by
  have hn : n.toNat < UInt64.size := n.toNat_lt
  refine (faithful_natural ?_).refine ?_
  · exact Nat.le_of_lt_succ hn
  · rw [if_pos hn, UInt64.ofNat_toNat]

theorem faithful_timestamp {t : Timestamp} (hrange : Timestamp.inRange t.date = true) :
    timestamp.Faithful t :=
  (faithful_text t.text).refine (Timestamp.ofText?_text hrange)

end Json.Form

/-! ## Names and records -/

theorem RefreshPolicy.faithful_form (p : RefreshPolicy) : form.Faithful p :=
  Form.faithful_variant (by cases p <;> decide) (by cases p <;> decide)

theorem Cause.faithful_form (c : Cause) : form.Faithful c :=
  Form.faithful_variant (by cases c <;> decide) (by cases c <;> decide)

theorem Identity.faithful_form (i : Identity) : form.Faithful i := by
  have hinst : if i.inst.isNone then some none = some i.inst
      else (Form.text.optional).Faithful i.inst := by
    cases i.inst with
    | none => rfl
    | some s => exact (Form.faithful_text s).optional (by simp [Form.text])
  have hrecord : Record.Faithful fields (i.ns, i.name, i.inst, i.endpoint, ()) :=
    ⟨Form.faithful_text _, Form.faithful_text _, hinst, Form.faithful_text _, trivial⟩
  have h := Record.faithful_form (by decide) hrecord
  exact ⟨h.spelled, by simp only [form, h.read_write, Except.map]⟩

/-- A state comes back when its year is one that times are read in. -/
theorem Sample.faithful_form {s : Sample} (hrange : Timestamp.inRange s.time.date = true) :
    form.Faithful s := by
  have hrecord : Record.Faithful fields (s.payload, s.time, s.uncertainty, ()) :=
    ⟨Form.faithful_text _, Form.faithful_timestamp hrange, Form.faithful_word32 _, trivial⟩
  have h := Record.faithful_form (by decide) hrecord
  exact ⟨h.spelled, by simp only [form, h.read_write, Except.map]⟩

theorem Config.faithful_form (c : Config) : form.Faithful c := by
  have hrecord : Record.Faithful fields (c.endpoint, c.timeout, ()) :=
    ⟨Form.faithful_text _, Form.faithful_word64 _, trivial⟩
  have h := Record.faithful_form (by decide) hrecord
  exact ⟨h.spelled, by simp only [form, h.read_write, Except.map]⟩

/-! ## The round trip -/

namespace Json

/-- Reads a text and writes anew what it says. -/
def Form.rewrite {α : Type} (f : Form α) (s : String) : Except ReadError String :=
  (f.ofText s).map f.toText

/-- A value that nothing is lost of between itself and its text. -/
structure Form.Keeps {α : Type} (f : Form α) (a : α) : Prop where
  /-- The value is read back from its text. -/
  reads_back : f.ofText (f.toText a) = .ok a
  /-- However a text spells the value, written anew it is the value's text, and that is read as the
      first one was. -/
  rewrites : ∀ s, f.ofText s = .ok a →
    f.rewrite s = .ok (f.toText a) ∧ f.ofText (f.toText a) = f.ofText s
  /-- The value's text is not changed by being read and written anew. -/
  settled : f.rewrite (f.toText a) = .ok (f.toText a)

/-- A faithful form keeps a value. -/
theorem Form.Faithful.keeps {α : Type} {f : Form α} {a : α} (h : f.Faithful a) : f.Keeps a := by
  have hback := h.ofText_toText
  have hanew : ∀ s, f.ofText s = .ok a → f.rewrite s = .ok (f.toText a) := by
    intro s hs
    rw [rewrite, hs]
    rfl
  exact ⟨hback, fun s hs => ⟨hanew s hs, hback.trans hs.symm⟩, hanew _ hback⟩

/-- **Everything comes back from its text**: every identity, every state of a year from 0000 to
    9999, all settings, every refresh policy and every cause. An absent instance and an empty one
    have different texts. -/
theorem round_trip :
    (∀ i : Identity, Identity.form.Keeps i) ∧
    (∀ s : Sample, 0 ≤ s.time.date.year → s.time.date.year ≤ 9999 → Sample.form.Keeps s) ∧
    (∀ c : Config, Config.form.Keeps c) ∧
    (∀ p : RefreshPolicy, RefreshPolicy.form.Keeps p) ∧
    (∀ c : Cause, Cause.form.Keeps c) ∧
    (∀ i : Identity, Identity.form.toText { i with inst := none } ≠
      Identity.form.toText { i with inst := some "" }) := by
  refine ⟨fun i => i.faithful_form.keeps, fun s hlow hhigh => ?_, fun c => c.faithful_form.keeps,
    fun p => p.faithful_form.keeps, fun c => c.faithful_form.keeps, fun i heq => ?_⟩
  · have hrange : Timestamp.inRange s.time.date = true := by
      simp [Timestamp.inRange]
      omega
    exact (Sample.faithful_form hrange).keeps
  · have hnone := (Identity.faithful_form { i with inst := none }).ofText_toText
    rw [heq, (Identity.faithful_form { i with inst := some "" }).ofText_toText] at hnone
    simp at hnone

/-- Twelve is the number of a month. -/
theorem december_is_month : 1 ≤ 12 ∧ 12 ≤ 12 := by decide

/-- The leap second at the end of 2016, in the middle. -/
def leapSecond : Timestamp where
  date := ⟨2016, 12, 31, december_is_month, by decide⟩
  time := ⟨23, 59, 60, 500000000, by decide, by decide, by decide, by decide⟩

/-- A state of a leap second, with a payload that has to be escaped. -/
theorem round_trip_leap_second :
    Sample.form.toText ⟨"\"on\"", leapSecond, 7⟩ =
      "\x7b\"value-payload\":\"\\\"on\\\"\"," ++
        "\"time-of-sample\":\"2016-12-31T23:59:60.500Z\",\"uncertainty-ms\":7\x7d" ∧
    0 ≤ leapSecond.date.year ∧ leapSecond.date.year ≤ 9999 ∧
    Sample.form.Keeps ⟨"\"on\"", leapSecond, 7⟩ :=
  ⟨by rfl, by decide, by decide, round_trip.2.1 _ (by decide) (by decide)⟩

end Json

end ContextBroker
