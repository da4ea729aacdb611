import SoundDesk.Json.Token

/-!
# Json/Reader — a value from the words of its text

`Json.ofTokens?` keeps the containers that are still open on a stack, so it reads texts nested to any depth
and is again a fold.  `Json.parse?` accepts exactly one value with blanks around it.
-/

namespace SoundDesk.Json

/-- A container that is still open; what it holds so far, last first. -/
inductive Frame where
  | array (items : List Json)
  /-- An object, the name of the field being read, and whether every name was readable. -/
  | object (fields : List (String × Json)) (name : String) (sound : Bool)

/-- What may come next. -/
inductive Expect where
  | value
  /-- A value, or the end of an array without items. -/
  | valueOrEnd
  | name
  /-- A field name, or the end of an object without fields. -/
  | nameOrEnd
  | colon
  | commaOrEnd
  /-- Nothing: the text is complete. -/
  | nothing (v : Json)
  /-- Nothing: the text is malformed. -/
  | malformed

/-- The open containers, innermost first, and what may come next. -/
structure Reading where
  frames : List Frame
  expect : Expect

namespace Reading

/-- A value is complete. -/
def deliver (frames : List Frame) (v : Json) : Reading :=
  match frames with
  | [] => ⟨[], .nothing v⟩
  | .array items :: rest => ⟨.array (v :: items) :: rest, .commaOrEnd⟩
  | .object fields name sound :: rest => ⟨.object ((name, v) :: fields) "" sound :: rest, .commaOrEnd⟩

/-- The innermost container ends. -/
def endContainer (frames : List Frame) (c : Char) : Reading :=
  match frames with
  | .array items :: rest => if c = ']' then deliver rest (.array items.reverse) else ⟨frames, .malformed⟩
  | .object fields _ sound :: rest =>
    if c = '\x7d' then deliver rest (if sound then .object fields.reverse else .unreadable)
    else ⟨frames, .malformed⟩
  | [] => ⟨frames, .malformed⟩

/-- A value begins. -/
def beginValue (frames : List Frame) : Token → Reading
  | .scalar v => deliver frames v
  | .text (some s) => deliver frames (.string s)
  | .text none => deliver frames .unreadable
  | .mark c =>
    if c = '[' then ⟨.array [] :: frames, .valueOrEnd⟩
    else if c = '\x7b' then ⟨.object [] "" true :: frames, .nameOrEnd⟩
    else ⟨frames, .malformed⟩

/-- A field name is read; an unreadable one makes the object unreadable. -/
def nameField (frames : List Frame) (t : Token) : Reading :=
  match frames, t with
  | .object fields _ sound :: rest, .text (some s) => ⟨.object fields s sound :: rest, .colon⟩
  | .object fields _ _ :: rest, .text none => ⟨.object fields "" false :: rest, .colon⟩
  | _, _ => ⟨frames, .malformed⟩

/-- Read one word. -/
def step (r : Reading) (t : Token) : Reading :=
  match r.expect with
  | .value => beginValue r.frames t
  | .valueOrEnd => if t == .mark ']' then endContainer r.frames ']' else beginValue r.frames t
  | .name => nameField r.frames t
  | .nameOrEnd => if t == .mark '\x7d' then endContainer r.frames '\x7d' else nameField r.frames t
  | .colon => if t == .mark ':' then ⟨r.frames, .value⟩ else ⟨r.frames, .malformed⟩
  | .commaOrEnd =>
    match t with
    | .mark c =>
      if c = ',' then
        match r.frames with
        | .array _ :: _ => ⟨r.frames, .value⟩
        | .object _ _ _ :: _ => ⟨r.frames, .name⟩
        | [] => ⟨r.frames, .malformed⟩
      else endContainer r.frames c
    | _ => ⟨r.frames, .malformed⟩
  | .nothing _ => ⟨r.frames, .malformed⟩
  | .malformed => r

end Reading

/-- The value that the words write, if they write one. -/
def ofTokens? (tokens : List Token) : Option Json :=
  match (tokens.foldl Reading.step ⟨[], .value⟩).expect with
  | .nothing v => some v
  | _ => none

/-- **Read a text** that holds one value with blanks around it. -/
def parse? (text : String) : Option Json := (Token.scan text).bind ofTokens?

end SoundDesk.Json
