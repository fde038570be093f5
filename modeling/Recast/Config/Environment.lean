import Recast.Toml.Value

/-!
# Environment — references to variables of the environment

A text of the exact form `{env:NAME}` stands for the value of a variable.  References are replaced
wherever they stand in a tree of values, and the values put in their places are not looked at again.
Tables are gone through in the order of their entries.
-/

namespace Recast

/-- The variables that are set. -/
abbrev Environment := String → Option String

namespace Toml

/-- The name of the variable that a text refers to. -/
def reference? (s : String) : Option String :=
  match s.toList with
  | '{' :: 'e' :: 'n' :: 'v' :: ':' :: rest =>
      if rest.getLast? = some '}' then some (String.ofList rest.dropLast) else none
  | _ => none

/-- A text with its reference replaced; the error is the name of a variable that is not set. -/
def resolveText (env : Environment) (s : String) : Except String String :=
  match reference? s with
  | none => .ok s
  | some name =>
      match env name with
      | some value => .ok value
      | none => .error name

mutual
def resolve (env : Environment) : Toml → Except String Toml
  | .string s => (resolveText env s).map .string
  | .array items => (resolveItems env items).map .array
  | .table es => (resolveEntries env es).map .table
  | .integer n => .ok (.integer n)
  | .float bits => .ok (.float bits)
  | .boolean b => .ok (.boolean b)
  | .moment m => .ok (.moment m)

def resolveItems (env : Environment) : List Toml → Except String (List Toml)
  | [] => .ok []
  | v :: rest => do
      let v ← resolve env v
      return v :: (← resolveItems env rest)

def resolveEntries (env : Environment) : List (String × Toml) → Except String (List (String × Toml))
  | [] => .ok []
  | e :: rest => do
      let e ← resolveEntry env e
      return e :: (← resolveEntries env rest)

def resolveEntry (env : Environment) : String × Toml → Except String (String × Toml)
  | (k, v) => (resolve env v).map fun v => (k, v)
end

/-! ## Which variables are referred to -/

mutual
/-- The names of the variables that a value refers to, in their order. -/
def references : Toml → List String
  | .string s => (reference? s).toList
  | .array items => referencesOfItems items
  | .table es => referencesOfEntries es
  | .integer _ | .float _ | .boolean _ | .moment _ => []

def referencesOfItems : List Toml → List String
  | [] => []
  | v :: rest => references v ++ referencesOfItems rest

def referencesOfEntries : List (String × Toml) → List String
  | [] => []
  | e :: rest => referencesOfEntry e ++ referencesOfEntries rest

def referencesOfEntry : String × Toml → List String
  | (_, v) => references v
end

end Toml
end Recast
