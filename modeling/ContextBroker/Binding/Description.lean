import ContextBroker.Binding
import ContextBroker.Text.Shown
import ContextBroker.Timestamp.Text

set_option autoImplicit false

/-! # Describing a binding

The text of a binding for a reader who debugs: its sample, kind and freshness, field by field, and
nothing about its provider. -/

namespace ContextBroker

namespace Text

/-- A code point in hexadecimal, without leading zeros. -/
def codePoint (c : Char) : List Char := Nat.toDigits 16 c.toNat

/-- A character of a quoted text: quote, backslash and the usual controls by a letter, whatever else
    does not show on its own by its code point. -/
def quotedChar (c : Char) : List Char :=
  match c with
  | '"' => ['\\', '"']
  | '\\' => ['\\', '\\']
  | '\n' => ['\\', 'n']
  | '\r' => ['\\', 'r']
  | '\t' => ['\\', 't']
  | '\x00' => ['\\', '0']
  | c =>
    if isShown c then [c] else ['\\', 'u', '\x7b'] ++ codePoint c ++ ['\x7d']

/-- A text between quotes. -/
def quoted (s : String) : String :=
  String.ofList ('"' :: s.toList.flatMap quotedChar ++ ['"'])

end Text

namespace Binding

/-- A record with named fields, between braces. -/
def fieldsText (name : String) (fields : List (String × String)) (last : String) : String :=
  name ++ " \x7b " ++ ", ".intercalate (fields.map fun (k, v) => k ++ ": " ++ v) ++ last ++ " \x7d"

/-- The name of a policy in a description. -/
def policyName : RefreshPolicy → String
  | .always => "Always"
  | .sometimes => "Sometimes"
  | .never => "Never"

/-- A kind in a description. -/
def kindText : Kind → String
  | .push p => fieldsText "LegacyPush" [("refresh_policy", policyName p)] ""
  | .pull => "Pull"

/-- A sample in a description. -/
def sampleText (s : Sample) : String :=
  fieldsText "CapabilityState"
    [("value_payload", Text.quoted s.payload), ("time_of_sample", s.time.text),
     ("uncertainty_ms", toString s.uncertainty.toNat)] ""

/-- The description of a binding; that there is more than it shows is marked at its end. -/
def description (b : Binding) : String :=
  let state := match b.state with
    | some s => "Some(" ++ sampleText s ++ ")"
    | none => "None"
  fieldsText "StateBinding"
    [("state", state), ("kind", kindText b.kind), ("fresh", toString b.fresh)] ", .."

end Binding

end ContextBroker
