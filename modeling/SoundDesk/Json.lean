import SoundDesk.Binary64.Shortest

/-!
# Json — JSON values, and the one text of each

A value keeps the fields of an object as they were written, repeated names included; the last field of a
name is the one that counts.  A number is an integer in the 64-bit range or a double.  `Json.render` writes a
value in its canonical text: no blanks, fields sorted by name, each name once, and of a double the fewest
digits that stand for it.
-/

namespace SoundDesk

/-- A JSON value. -/
inductive Json where
  | null
  | bool (b : Bool)
  /-- A number written as an integer from `-2 ^ 63` up to `2 ^ 64 - 1`. -/
  | int (n : Int)
  /-- Any other number. -/
  | real (x : Binary64)
  | string (s : String)
  | array (items : List Json)
  /-- The fields as written, repeated names included. -/
  | object (fields : List (String × Json))
  /-- What is well formed and denotes nothing: a string or a field name with half of a surrogate pair, or a
  number beyond every double. -/
  | unreadable
  deriving BEq, Repr

namespace Json

instance : Inhabited Json := ⟨null⟩

/-! ## Texts -/

/-- `n` zeros. -/
def zeros (n : Nat) : String := String.ofList (List.replicate n '0')

/-- **The text of a number** that is no integer in the 64-bit range.  The point stands where it falls within
sixteen digits or after at most four zeros; otherwise it follows the first digit and a signed exponent is
written.  An integer keeps a `.0`. -/
def realText (x : Binary64) : String :=
  let d := x.shortest
  let digits := Nat.toDigits 10 d.digits
  let point := (digits.length : Int) + d.exponent
  let body :=
    if 0 ≤ d.exponent ∧ point ≤ 16 then String.ofList digits ++ zeros d.exponent.toNat ++ ".0"
    else if 0 < point ∧ point ≤ 16 then
      String.ofList (digits.take point.toNat) ++ "." ++ String.ofList (digits.drop point.toNat)
    else if -5 < point ∧ point ≤ 0 then "0." ++ zeros (-point).toNat ++ String.ofList digits
    else
      let fraction := digits.drop 1
      String.ofList (digits.take 1) ++ (if fraction.isEmpty then "" else "." ++ String.ofList fraction)
        ++ "e" ++ (if 0 < point then "+" else "") ++ toString (point - 1)
  if x.negative then "-" ++ body else body

/-- The hexadecimal digits of a number, four of them at least. -/
def hex4 (n : Nat) : String :=
  let digits := Nat.toDigits 16 n
  String.ofList (List.replicate (4 - digits.length) '0' ++ digits)

/-- One character inside a quoted text. -/
def escapeChar (c : Char) : String :=
  if c = '"' then "\\\""
  else if c = '\\' then "\\\\"
  else if c = '\n' then "\\n"
  else if c = '\r' then "\\r"
  else if c = '\t' then "\\t"
  else if c.toNat = 8 then "\\b"
  else if c.toNat = 12 then "\\f"
  else if c.toNat < 32 then "\\u" ++ hex4 c.toNat
  else c.toString

/-- A string between quotes. -/
def quote (s : String) : String := "\"" ++ String.join (s.toList.map escapeChar) ++ "\""

/-- Put a written field at its place among fields sorted by name; it takes the place of one of the same name. -/
def placeField (name text : String) : List (String × String) → List (String × String)
  | [] => [(name, text)]
  | (n, t) :: rest =>
    if name = n then (name, text) :: rest
    else if name < n then (name, text) :: (n, t) :: rest
    else (n, t) :: placeField name text rest

mutual

/-- **The canonical text of a value.** -/
def render : Json → String
  | null => "null"
  | bool b => if b then "true" else "false"
  | int n => toString n
  | real x => realText x
  | string s => quote s
  | array items => "[" ++ ",".intercalate (renderItems items) ++ "]"
  | object fields =>
    let placed := (renderFields fields).foldl (fun sorted f => placeField f.1 f.2 sorted) []
    "\x7b" ++ ",".intercalate (placed.map fun f => quote f.1 ++ ":" ++ f.2) ++ "\x7d"
  | unreadable => "null"

/-- The texts of the items of an array. -/
def renderItems : List Json → List String
  | [] => []
  | v :: rest => v.render :: renderItems rest

/-- The texts of the values of an object, each with its name. -/
def renderFields : List (String × Json) → List (String × String)
  | [] => []
  | (n, v) :: rest => (n, v.render) :: renderFields rest

end

mutual

/-- The number of containers on the longest way down into a value. -/
def depth : Json → Nat
  | array items => depthItems items + 1
  | object fields => depthFields fields + 1
  | _ => 0

/-- The greatest depth among the items of an array. -/
def depthItems : List Json → Nat
  | [] => 0
  | v :: rest => max v.depth (depthItems rest)

/-- The greatest depth among the values of an object. -/
def depthFields : List (String × Json) → Nat
  | [] => 0
  | (_, v) :: rest => max v.depth (depthFields rest)

end

mutual

/-- Everything inside the value denotes something. -/
def isReadable : Json → Bool
  | unreadable => false
  | array items => readableItems items
  | object fields => readableFields fields
  | _ => true

/-- Every item of an array is readable. -/
def readableItems : List Json → Bool
  | [] => true
  | v :: rest => v.isReadable && readableItems rest

/-- Every value of an object is readable. -/
def readableFields : List (String × Json) → Bool
  | [] => true
  | (_, v) :: rest => v.isReadable && readableFields rest

end

/-- The text of a string value. -/
def asString? : Json → Option String
  | string s => some s
  | _ => none

end Json

end SoundDesk
