import ContextBroker.Config
import ContextBroker.Json.Record
import ContextBroker.Timestamp.Text
import ContextBroker.Binding

set_option autoImplicit false

/-! # Identities, states and settings in JSON -/

namespace ContextBroker

open Json

/-! ## Numbers and times -/

namespace Json.Form

/-- Numbers of 32 bits. -/
def word32 : Form UInt32 :=
  natural.refine (fun n => if n < UInt32.size then some (.ofNat n) else none) UInt32.toNat

/-- Numbers of 64 bits. -/
def word64 : Form UInt64 :=
  natural.refine (fun n => if n < UInt64.size then some (.ofNat n) else none) UInt64.toNat

/-- Instants, as texts. -/
def timestamp : Form Timestamp := text.refine Timestamp.ofText? Timestamp.text

end Json.Form

/-! ## Names -/

/-- Refresh policies. -/
def RefreshPolicy.form : Form RefreshPolicy := .variant RefreshPolicy.text RefreshPolicy.all

/-- Causes of a change. -/
def Cause.form : Form Cause := .variant Cause.text Cause.all

/-! ## Records -/

/-- The fields of an identity. An instance that is absent is left out. -/
def Identity.fields : List Field :=
  [{ name := "namespace", Value := String, form := .text },
   { name := "name", Value := String, form := .text },
   { name := "instance", Value := Option String, form := .optional .text, absent := some none,
     hidden := Option.isNone },
   { name := "endpoint-id", Value := String, form := .text, absent := some "" }]

/-- Identities. -/
def Identity.form : Form Identity where
  write i := (Record.form fields).write (i.ns, i.name, i.inst, i.endpoint, ())
  read t := ((Record.form fields).read t).map fun (ns, name, inst, endpoint, _) =>
    ⟨ns, name, inst, endpoint⟩

/-- The fields of a state. -/
def Sample.fields : List Field :=
  [{ name := "value-payload", Value := String, form := .text },
   { name := "time-of-sample", Value := Timestamp, form := .timestamp },
   { name := "uncertainty-ms", Value := UInt32, form := .word32, absent := some 0 }]

/-- States. -/
def Sample.form : Form Sample where
  write s := (Record.form fields).write (s.payload, s.time, s.uncertainty, ())
  read t := ((Record.form fields).read t).map fun (payload, time, uncertainty, _) =>
    ⟨payload, time, uncertainty⟩

/-- The fields of the settings. -/
def Config.fields : List Field :=
  [{ name := "default-endpoint-id", Value := String, form := .text,
     absent := some ({} : Config).endpoint },
   { name := "default-timeout-ms", Value := UInt64, form := .word64,
     absent := some ({} : Config).timeout }]

/-- Settings. -/
def Config.form : Form Config where
  write c := (Record.form fields).write (c.endpoint, c.timeout, ())
  read t := ((Record.form fields).read t).map fun (endpoint, timeout, _) => ⟨endpoint, timeout⟩

end ContextBroker
