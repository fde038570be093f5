import Recast.Morph.Function
import Recast.Text.Placeholder
import Recast.Text.Parts

/-!
# Collector — what happens to several values

A `Collector` receives the values of its inputs during a record.  It may emit a value when it
receives one, and another one when the record ends.  What it has received is its `Memory`.

* `concat` joins all values at the end of the record;
* `combine` fills in a template whenever all its inputs have a value;
* `choose` emits, at the end of the record, the first value of the first input that has any.
-/

namespace Recast

/-- A collector whose attributes have been read. -/
inductive Collector where
  | concat (delimiter before after : String)
  | combine (template : List Placeholder.Part) (inputs : List String) (clears : Bool)
  | choose (inputs : List String)

/-- What a collector has received, in order: an input and its value. -/
abbrev Collector.Memory := List (String × String)

namespace Collector

/-- A truth value, blanks around it aside. -/
def readReset (s : String) : Except ArgumentError Bool :=
  match Text.trim s with
  | "true" => .ok true
  | "false" => .ok false
  | _ => .error (.invalidReset s)

def ofKind (kind : String) (attributes : OrderedMap String String) (inputs : List String) :
    Except ArgumentError Collector := do
  let some s := Signature.collector? kind | throw (.unknownCollector kind)
  Function.checkRequired s attributes
  match kind with
  | "concat" =>
      return .concat ((attributes.get? "delimiter").getD "") ((attributes.get? "prefix").getD "")
        ((attributes.get? "postfix").getD "")
  | "combine" =>
      let clears ← match attributes.get? "reset" with
        | none => .ok false
        | some r => readReset r
      let value ← Function.required kind attributes "value"
      return .combine (Placeholder.parts '{' '}' value.toList) inputs clears
  | "choose" => return .choose inputs
  | _ => throw (.unknownCollector kind)

/-- Receive a value from an input: what is emitted, and what is remembered. -/
def receive (k : Collector) (m : Memory) (input value : String) : Option String × Memory :=
  match k with
  | .concat .. => (none, m ++ [(input, value)])
  | .combine template inputs clears =>
      let m' := Assoc.put input value m
      -- a later value of an input takes the place of an earlier one
      if inputs.all fun i => (Assoc.get? i m').isSome then
        (some (Placeholder.fill (fun n => (Assoc.get? n m').getD "") template),
          if clears then [] else m')
      else (none, m')
  | .choose _ =>
      (none, if (Assoc.get? input m).isSome then m else m ++ [(input, value)])

def flush (k : Collector) (m : Memory) : Option String :=
  match k with
  | .concat delimiter before after =>
      if m.isEmpty then none
      else some (before ++ Text.glue delimiter (m.map Prod.snd) ++ after)
  | .combine .. => none
  | .choose inputs => inputs.findSome? fun i => Assoc.get? i m

def reset (_ : Collector) (_ : Memory) : Memory := []

end Collector
end Recast
