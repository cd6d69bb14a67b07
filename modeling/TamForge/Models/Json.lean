import Mathlib.Data.List.Basic

/-!
# JSON values

What `json.loads` returns.  A number is kept as the text Python prints for it;
no modelled function computes with one.
-/

namespace TamForge.Models

inductive Json
  | null
  | bool (value : Bool)
  | number (text : String)
  | string (value : String)
  | array (items : List Json)
  | object (fields : List (String × Json))

namespace Json

/-- `value[key]` on a dictionary: the last field of that name. -/
def item? (fields : List (String × Json)) (key : String) : Option Json :=
  (fields.reverse.find? fun field => field.1 = key).map Prod.snd

/-- `value.get(key)` on a dictionary. -/
def get (fields : List (String × Json)) (key : String) : Json :=
  (item? fields key).getD .null

def truthy : Json → Bool
  | null => false
  | bool value => value
  | number text => text != "0" && text != "0.0" && text != "-0.0"
  | string value => value != ""
  | array items => !items.isEmpty
  | object fields => !fields.isEmpty

mutual

/-- `str(value)`; inside a container a string is quoted as `repr` quotes it,
up to the escaping of quotes and control characters. -/
def pyStr : Json → String
  | null => "None"
  | bool value => if value then "True" else "False"
  | number text => text
  | string value => value
  | array items => "[" ++ ", ".intercalate (reprItems items) ++ "]"
  | object fields => "\x7b" ++ ", ".intercalate (reprFields fields) ++ "\x7d"

def pyRepr : Json → String
  | string value => "'" ++ value ++ "'"
  | null => "None"
  | bool value => if value then "True" else "False"
  | number text => text
  | array items => "[" ++ ", ".intercalate (reprItems items) ++ "]"
  | object fields => "\x7b" ++ ", ".intercalate (reprFields fields) ++ "\x7d"

def reprItems : List Json → List String
  | [] => []
  | item :: rest => pyRepr item :: reprItems rest

def reprFields : List (String × Json) → List String
  | [] => []
  | (key, value) :: rest => ("'" ++ key ++ "': " ++ pyRepr value) :: reprFields rest

end

mutual

/-- The same document, as Python compares what it was loaded from. -/
def beq : Json → Json → Bool
  | null, null => true
  | bool a, bool b => a == b
  | number a, number b => a == b
  | string a, string b => a == b
  | array a, array b => beqItems a b
  | object a, object b => beqFields a b
  | _, _ => false

def beqItems : List Json → List Json → Bool
  | [], [] => true
  | a :: as, b :: bs => beq a b && beqItems as bs
  | _, _ => false

def beqFields : List (String × Json) → List (String × Json) → Bool
  | [], [] => true
  | (key, a) :: as, (key', b) :: bs => key == key' && beq a b && beqFields as bs
  | _, _ => false

end

mutual

theorem eq_of_beq : ∀ {a b : Json}, beq a b = true → a = b
  | null, b, h => by cases b <;> simp_all [beq]
  | bool _, b, h => by cases b <;> simp_all [beq]
  | number _, b, h => by cases b <;> simp_all [beq]
  | string _, b, h => by cases b <;> simp_all [beq]
  | array items, b, h => by
      cases b with
      | array items' =>
        rw [beq] at h
        rw [eq_of_beqItems h]
      | _ => simp [beq] at h
  | object fields, b, h => by
      cases b with
      | object fields' =>
        rw [beq] at h
        rw [eq_of_beqFields h]
      | _ => simp [beq] at h

theorem eq_of_beqItems : ∀ {a b : List Json}, beqItems a b = true → a = b
  | [], b, h => by cases b <;> simp_all [beqItems]
  | first :: rest, b, h => by
      cases b with
      | nil => simp [beqItems] at h
      | cons first' rest' =>
        simp only [beqItems, Bool.and_eq_true] at h
        rw [eq_of_beq h.1, eq_of_beqItems h.2]

theorem eq_of_beqFields : ∀ {a b : List (String × Json)}, beqFields a b = true → a = b
  | [], b, h => by cases b <;> simp_all [beqFields]
  | (key, first) :: rest, b, h => by
      cases b with
      | nil => simp [beqFields] at h
      | cons field rest' =>
        obtain ⟨key', first'⟩ := field
        simp only [beqFields, Bool.and_eq_true, beq_iff_eq] at h
        rw [h.1.1, eq_of_beq h.1.2, eq_of_beqFields h.2]

end

mutual

theorem beq_refl : ∀ a : Json, beq a a = true
  | null => rfl
  | bool _ => by simp [beq]
  | number _ => by simp [beq]
  | string _ => by simp [beq]
  | array items => by simpa [beq] using beqItems_refl items
  | object fields => by simpa [beq] using beqFields_refl fields

theorem beqItems_refl : ∀ items : List Json, beqItems items items = true
  | [] => rfl
  | first :: rest => by simp [beqItems, beq_refl first, beqItems_refl rest]

theorem beqFields_refl : ∀ fields : List (String × Json), beqFields fields fields = true
  | [] => rfl
  | (_, first) :: rest => by simp [beqFields, beq_refl first, beqFields_refl rest]

end

instance : DecidableEq Json := fun a b =>
  decidable_of_iff (beq a b = true) ⟨eq_of_beq, fun h => h ▸ beq_refl a⟩

/-- A field goes to its place by key; a later field of the same name replaces
an earlier one. -/
def insertField (field : String × Json) : List (String × Json) → List (String × Json)
  | [] => [field]
  | first :: rest =>
    if field.1 < first.1 then field :: first :: rest
    else if field.1 = first.1 then field :: rest
    else first :: insertField field rest

mutual

/-- The value up to what a Python dictionary does not keep: the order of its
keys.  `json.dumps(value, sort_keys=True)` prints this one. -/
def canonical : Json → Json
  | array items => array (canonicalItems items)
  | object fields => object (canonicalFields fields [])
  | value => value

def canonicalItems : List Json → List Json
  | [] => []
  | item :: rest => canonical item :: canonicalItems rest

def canonicalFields : List (String × Json) → List (String × Json) → List (String × Json)
  | [], sorted => sorted
  | (key, value) :: rest, sorted =>
    canonicalFields rest (insertField (key, canonical value) sorted)

end

/-! ## Text -/

def hexDigit (n : Nat) : Char :=
  if n % 16 < 10 then Char.ofNat (48 + n % 16) else Char.ofNat (87 + n % 16)

/-- `\uXXXX` -/
def unicodeEscape (n : Nat) : List Char :=
  ['\\', 'u', hexDigit (n / 4096), hexDigit (n / 256), hexDigit (n / 16), hexDigit n]

/-- One character as `json.dumps` writes it with `ensure_ascii=True`: outside the
Basic Multilingual Plane as a surrogate pair. -/
def escapeChar (c : Char) : List Char :=
  let n := c.toNat
  if n = 34 then ['\\', '"']
  else if n = 92 then ['\\', '\\']
  else if n = 10 then ['\\', 'n']
  else if n = 13 then ['\\', 'r']
  else if n = 9 then ['\\', 't']
  else if n = 8 then ['\\', 'b']
  else if n = 12 then ['\\', 'f']
  else if 32 ≤ n ∧ n ≤ 126 then [c]
  else if n < 65536 then unicodeEscape n
  else unicodeEscape (55296 + (n - 65536) / 1024) ++ unicodeEscape (56320 + (n - 65536) % 1024)

def dumpString (text : String) : List Char :=
  '"' :: (text.toList.flatMap escapeChar ++ ['"'])

mutual

/-- `json.dumps(value, ensure_ascii=True, separators=(",", ":"))` -/
def dumps : Json → List Char
  | null => ['n', 'u', 'l', 'l']
  | bool value => if value then ['t', 'r', 'u', 'e'] else ['f', 'a', 'l', 's', 'e']
  | number text => text.toList
  | string value => dumpString value
  | array items => '[' :: (dumpItems items ++ [']'])
  | object fields => '\x7b' :: (dumpFields fields ++ ['\x7d'])

def dumpItems : List Json → List Char
  | [] => []
  | item :: [] => dumps item
  | item :: rest => dumps item ++ ',' :: dumpItems rest

def dumpFields : List (String × Json) → List Char
  | [] => []
  | (key, value) :: [] => dumpString key ++ ':' :: dumps value
  | (key, value) :: rest => dumpString key ++ ':' :: dumps value ++ ',' :: dumpFields rest

end

end Json

/-- A text column as `json.loads` reads it: a document, or text that is not
JSON. -/
inductive JsonText
  | document (value : Json)
  | plain (text : String)

end TamForge.Models
