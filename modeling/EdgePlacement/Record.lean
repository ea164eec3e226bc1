import EdgePlacement.Decimal.Numeral
import EdgePlacement.Decimal.Shortest
import EdgePlacement.Fault
import EdgePlacement.Link
import EdgePlacement.Node
import EdgePlacement.Text.Quoted

/-!
# Raw records

Records of nodes and links before their values have been read: each value may be of any kind. Names
are taken as the text of a value, quantities as the number that it is or that its text denotes.
-/

namespace EdgePlacement

open EdgePlacement.Decimal EdgePlacement.Text

inductive RawValue where
  | absent
  | flag (value : Bool)
  | whole (value : Int)
  | number (value : Float)
  | text (value : String)
  | sequence (items : List RawValue)
  deriving Inhabited

namespace RawValue

mutual

def quoted : RawValue → String
  | absent => "None"
  | flag true => "True"
  | flag false => "False"
  | whole n => wholeText n
  | number x => numberText x
  | text s => Text.quoted s
  | sequence items => "[" ++ String.intercalate ", " (quotedItems items) ++ "]"

def quotedItems : List RawValue → List String
  | [] => []
  | item :: rest => item.quoted :: quotedItems rest

end

def asText : RawValue → String
  | text s => s
  | value => value.quoted

def asNumber : RawValue → Except (Fault Float) Float
  | number x => .ok x
  | flag value => .ok (if value then 1 else 0)
  | whole n =>
    match floatOfWhole? n with
    | some x => .ok x
    | none => .error .numberTooLarge
  | text s =>
    match Numeral.read? s with
    | some numeral => .ok numeral.toFloat
    | none => .error .notANumber
  | absent => .error .noNumberAtAll
  | sequence _ => .error .noNumberAtAll

end RawValue

/-- A record is a sequence of values; a text counts as the sequence of its characters. -/
def recordValues : RawValue → Except (Fault Float) (List RawValue)
  | .sequence items => .ok items
  | .text s => .ok (s.toList.map fun c => .text (String.ofList [c]))
  | _ => .error .wrongArity

def Node.ofValues (values : List RawValue) : Except (Fault Float) (Node Float) :=
  let build (name storage compute uplink downlink : RawValue) :
      Except (Fault Float) (Node Float) := do
    let storage ← storage.asNumber
    let compute ← compute.asNumber
    let uplink ← uplink.asNumber
    let downlink ← downlink.asNumber
    Node.checked name.asText ⟨storage, compute, uplink, downlink⟩
  match values with
  | [name, storage, compute] => build name storage compute (.number 0) (.number 0)
  | [name, storage, compute, uplink] => build name storage compute uplink (.number 0)
  | [name, storage, compute, uplink, downlink] => build name storage compute uplink downlink
  | _ => .error .wrongArity

def Link.ofValues (values : List RawValue) : Except (Fault Float) (Link Float) :=
  match values with
  | [id, first, second, capacity, latency] => do
    let capacity ← capacity.asNumber
    let latency ← latency.asNumber
    Link.checked id.asText first.asText second.asText capacity latency
  | _ => .error .wrongArity

def Node.ofRecord (record : RawValue) : Except (Fault Float) (Node Float) :=
  (recordValues record).bind Node.ofValues

def Link.ofRecord (record : RawValue) : Except (Fault Float) (Link Float) :=
  (recordValues record).bind Link.ofValues

end EdgePlacement
