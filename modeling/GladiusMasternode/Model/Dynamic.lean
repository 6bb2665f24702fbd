import Mathlib.Algebra.Ring.Int.Defs
import Mathlib.Data.Rat.Init
import Mathlib.Data.List.Basic
/-
# `folly::dynamic`

| here | there |
| --- | --- |
| `Dynamic`     | a JSON value; an object is its entries in iteration order, with distinct keys |
| `«at»`        | `operator[]` on a non-const value: a missing key reads as the null it inserts |
| `getString`   | `getString()` |
| `asInt`       | `asInt()`, that is `folly::to<int64_t>` of a number, a bool or a string |
| `empty`       | `empty()` |
| `items`       | `items()` |
| `set`         | `o[k] = v` |
| `DynamicError`| the exceptions these throw, all of them `std::exception`s |
-/

namespace GladiusMasternode

inductive Dynamic where
  | null
  | bool (b : Bool)
  | int64 (n : Int)
  /-- `none` for infinities and NaN -/
  | double (d : Option ℚ)
  | string (s : String)
  | array (xs : List Dynamic)
  | object (kvs : List (String × Dynamic))

inductive DynamicError where
  | typeError | conversionError
deriving DecidableEq, Repr

namespace Dynamic

/-! ## `folly::to<int64_t>` -/

def int64Min : Int := -2 ^ 63
def int64Max : Int := 2 ^ 63 - 1

def inInt64 (n : Int) : Bool := int64Min ≤ n && n ≤ int64Max

def isSpace (c : Char) : Bool :=
  c = ' ' || c = '\t' || c = '\n' || c = '\r' || c.toNat = 11 || c.toNat = 12

/-- Optional sign, at least one digit, nothing but space around them, and in range. -/
def stringToInt64 (s : String) : Except DynamicError Int :=
  let cs := ((s.toList.dropWhile isSpace).reverse.dropWhile isSpace).reverse
  let (neg, ds) := match cs with
    | '-' :: ds => (true, ds)
    | '+' :: ds => (false, ds)
    | ds => (false, ds)
  if ds ≠ [] && ds.all Char.isDigit then
    let v : Nat := ds.foldl (fun v c => 10 * v + (c.toNat - '0'.toNat)) 0
    let n : Int := if neg then -v else v
    if inInt64 n then .ok n else .error .conversionError
  else .error .conversionError

/-- A double converts if it is an integer in range. -/
def doubleToInt64 : Option ℚ → Except DynamicError Int
  | some q => if q.den = 1 && inInt64 q.num then .ok q.num else .error .conversionError
  | none => .error .conversionError

def asInt : Dynamic → Except DynamicError Int
  | int64 n => .ok n
  | double d => doubleToInt64 d
  | bool b => .ok (if b then 1 else 0)
  | string s => stringToInt64 s
  | null | array _ | object _ => .error .typeError

/-! ## Access -/

def «at» (v : Dynamic) (key : String) : Except DynamicError Dynamic :=
  match v with
  | object kvs => .ok ((kvs.lookup key).getD null)
  | _ => .error .typeError

def getString : Dynamic → Except DynamicError String
  | string s => .ok s
  | _ => .error .typeError

def empty : Dynamic → Except DynamicError Bool
  | null => .ok true
  | array xs => .ok xs.isEmpty
  | object kvs => .ok kvs.isEmpty
  | string s => .ok s.isEmpty
  | bool _ | int64 _ | double _ => .error .typeError

def items : Dynamic → Except DynamicError (List (String × Dynamic))
  | object kvs => .ok kvs
  | _ => .error .typeError

/-- Insert or overwrite an entry of an object. -/
def setEntry {α : Type} (kvs : List (String × α)) (key : String) (v : α) : List (String × α) :=
  if (kvs.lookup key).isSome then kvs.map fun kv => if kv.1 = key then (key, v) else kv
  else kvs ++ [(key, v)]

def set (o : Dynamic) (key : String) (v : Dynamic) : Dynamic :=
  match o with
  | object kvs => object (setEntry kvs key v)
  | o => o

/-- `push_back` on an array. -/
def push_back (o : Dynamic) (v : Dynamic) : Dynamic :=
  match o with
  | array xs => array (xs ++ [v])
  | o => o

end Dynamic

end GladiusMasternode
