import Tsql.Number.Binary

/-!
# JSON values

A number is an integer or a floating-point number. The fields of an object are a list of key and
value; `Fields.put` keeps a list ordered by key with one entry each, and `normalize` brings a value
that was read into that form, the last of several entries of a key counting. `merge` lays one value
over another, objects field by field.
-/

namespace Tsql

inductive JsonNumber where
  | integer (i : Int)
  | float (x : Binary64)
  deriving DecidableEq, Repr

inductive Json where
  | null
  | bool (b : Bool)
  | number (n : JsonNumber)
  | string (s : String)
  | array (items : List Json)
  | object (fields : List (String × Json))

namespace Json

def ofInt (i : Int) : Json := .number (.integer i)

/-- A floating-point number as a JSON value; what is not finite becomes `null`. -/
def ofFloat (x : Binary64) : Json := if x.isFinite then .number (.float x) else .null

def getField? (key : String) : List (String × Json) → Option Json
  | [] => none
  | (k, v) :: r => if k = key then some v else getField? key r

/-- Enters a value under a key, in the order of keys; an entry of the same key is replaced. -/
def putField (key : String) (value : Json) : List (String × Json) → List (String × Json)
  | [] => [(key, value)]
  | (k, v) :: r =>
    if key = k then (key, value) :: r
    else if key < k then (key, value) :: (k, v) :: r
    else (k, v) :: putField key value r

/-- Fields entered one after the other into an empty object. -/
def orderFields (fields : List (String × Json)) : List (String × Json) :=
  fields.foldl (fun acc (k, v) => putField k v acc) []

mutual

/-- Orders the fields of all objects inside a value; of several entries of a key the last counts. -/
def normalize : Json → Json
  | .array items => .array (normalizeItems items)
  | .object fields => .object (orderFields (normalizeFields fields))
  | j => j

def normalizeItems : List Json → List Json
  | [] => []
  | j :: r => normalize j :: normalizeItems r

def normalizeFields : List (String × Json) → List (String × Json)
  | [] => []
  | (k, v) :: r => (k, normalize v) :: normalizeFields r

end

mutual

/-- Lays a value over another: two objects are merged key by key, anything else is replaced. -/
def merge (base : Json) : Json → Json
  | .object upper => match base with
    | .object fields => .object (mergeFields fields upper)
    | _ => .object upper
  | upper => upper

/-- Enters fields into an object, each merged with the entry that its key has already. -/
def mergeFields (base : List (String × Json)) : List (String × Json) → List (String × Json)
  | [] => base
  | (k, v) :: r => mergeFields (putField k (mergeOption (getField? k base) v) base) r

def mergeOption (base : Option Json) (upper : Json) : Json :=
  match base with
  | some b => merge b upper
  | none => upper

end

end Json

end Tsql
