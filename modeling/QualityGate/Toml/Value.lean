import QualityGate.Toml.Text
import QualityGate.Toml.DateTime
import QualityGate.Toml.Tree
/-!
Reading keys and values. A value is a string, a number, a date or time, a boolean, an array or an
inline table; which of them is tried is settled by its first character. Arrays and inline tables
nest to a limited depth.
-/

namespace QualityGate.Toml

/-! ### Keys -/

/-- One more than the number of levels to which values nest and keys are dotted. -/
def depthLimit : Nat := 80

/-- The message about a document that nests too deep. -/
def depthMessage : String := "recursion limit exceeded"

/-- One part of a dotted key. -/
def simpleKey (s : Input) : Reply Key :=
  let name : Reply String :=
    match s with
    | [] => .tentative [] {}
    | c :: r =>
      if c = quote ∨ c = apostrophe then lineText (c :: r)
      else if isBareKeyChar c then
        .ok (String.ofList ((c :: r).takeWhile isBareKeyChar)) ((c :: r).dropWhile isBareKeyChar)
      else .tentative (c :: r) {}
  name.andThen fun n rest => .ok ⟨n, ⟨s, rest⟩⟩ rest

/-- One part with the spaces around it. -/
def spacedKey (s : Input) : Reply Key :=
  (simpleKey (skipSpaces s)).andThen fun k rest => .ok k (skipSpaces rest)

/-- Further parts, each after a dot; a dot that no part follows is left standing. -/
def moreKeys (acc : List Key) : Nat → Input → Reply (List Key)
  | 0, s => .ok acc.reverse s
  | n + 1, s =>
    match s with
    | '.' :: r =>
      match spacedKey r with
      | .ok k rest => moreKeys (k :: acc) n rest
      | .tentative _ _ => .ok acc.reverse s
      | .committed p c => .committed p c
    | _ => .ok acc.reverse s

/-- **Reads a dotted key**, of one part at least. -/
def dottedKey (s : Input) : Reply (List Key) :=
  (((spacedKey s).andThen fun k rest => moreKeys [k] rest.length rest).labelled "key").andThen
    fun ks rest =>
      if ks.length < depthLimit then .ok ks rest
      else .tentative s { cause := some depthMessage }

/-! ### Arrays -/

/-- One item of an array, with what stands around it. -/
def arrayItem (value : Input → Reply Item) (s : Input) : Reply Item :=
  (value (skipFiller s)).andThen fun v rest => .ok v (skipFiller rest)

/-- Further items, each after a comma; a comma that no item follows is left standing. -/
def moreArrayItems (value : Input → Reply Item) (acc : List Item) :
    Nat → Input → Reply (List Item)
  | 0, s => .ok acc.reverse s
  | n + 1, s =>
    match s with
    | ',' :: r =>
      match arrayItem value r with
      | .ok v rest => moreArrayItems value (v :: acc) n rest
      | .tentative _ _ => .ok acc.reverse s
      | .committed p c => .committed p c
    | _ => .ok acc.reverse s

/-- The items of an array, and a comma after the last. -/
def arrayItems (value : Input → Reply Item) (s : Input) : Reply (List Item) :=
  match arrayItem value s with
  | .committed p c => .committed p c
  | .tentative _ _ => .ok [] (skipFiller s)
  | .ok v rest =>
    (moreArrayItems value [v] rest.length rest).andThen fun vs rest =>
      match rest with
      | ',' :: r => .ok vs (skipFiller r)
      | _ => .ok vs (skipFiller rest)

/-- The rest of an array after its opening bracket at `start`. -/
def arrayRest (value : Input → Reply Item) (start s : Input) : Reply Item :=
  let items : Reply (List Item) :=
    match s with
    | ']' :: _ => .ok [] s
    | _ => arrayItems value s
  items.andThen fun vs rest =>
    match rest with
    | ']' :: r => .ok (.array vs ⟨start, r⟩) r
    | _ => .committed rest { label := some "array", wanted := [.literal "]"] }

/-! ### Inline tables -/

/-- What may follow a key. -/
def wantedAfterKey : List Wanted :=
  [.literal ".", .literal "="]

/-- One definition between braces. -/
def inlineDefinition (value : Input → Reply Item) (s : Input) : Reply (List Key × Item) :=
  (dottedKey s).andThen fun ks rest =>
    match rest with
    | '=' :: r =>
      ((value (skipSpaces r)).andThen fun v rest => .ok (ks, v) (skipSpaces rest)).commit
    | _ => .committed rest { wanted := wantedAfterKey }

/-- Further definitions, each after a comma. -/
def moreDefinitions (value : Input → Reply Item) (acc : List (List Key × Item)) :
    Nat → Input → Reply (List (List Key × Item))
  | 0, s => .ok acc.reverse s
  | n + 1, s =>
    match s with
    | ',' :: r =>
      match inlineDefinition value r with
      | .ok d rest => moreDefinitions value (d :: acc) n rest
      | .tentative _ _ => .ok acc.reverse s
      | .committed p c => .committed p c
    | _ => .ok acc.reverse s

/-- The definitions between braces. -/
def definitions (value : Input → Reply Item) (s : Input) : Reply (List (List Key × Item)) :=
  match inlineDefinition value s with
  | .committed p c => .committed p c
  | .tentative _ _ => .ok [] (skipSpaces s)
  | .ok d rest =>
    (moreDefinitions value [d] rest.length rest).andThen fun ds rest => .ok ds (skipSpaces rest)

/-- The table that some definitions make, or how two of them clash. -/
def tableOfDefinitions : List (List Key × Item) → Except Clash Table :=
  List.foldlM
    (fun t d =>
      match d.1.getLast? with
      | some key => t.define d.1.dropLast none key d.2
      | none => .ok t)
    { form := { inline := true } }

/-- The rest of an inline table after its opening brace at `start`. -/
def inlineRest (value : Input → Reply Item) (start s : Input) : Reply Item :=
  (definitions value s).andThen fun ds rest =>
    match tableOfDefinitions ds with
    | .error clash => .breaks s clash.message
    | .ok t =>
      match rest with
      | '\x7d' :: r => .ok (.table { t.form with span := some ⟨start, r⟩ } t.entries) r
      | _ => .committed rest { label := some "inline table", wanted := [.literal "\x7d"] }

/-! ### Values -/

/-- The complaint where no value begins: most likely a string without quotes. -/
def noValue : Complaint :=
  { label := some "string", wanted := [.literal "\x22", .literal "\x27"] }

/-- A scalar with its place. -/
def placed (start : Input) (f : α → Scalar) (r : Reply α) : Reply Item :=
  r.andThen fun v rest => .ok (.scalar (f v) ⟨start, rest⟩) rest

/-- Reads a given word as a scalar; another word is a complaint at its start. -/
def word (start : Input) (w : String) (v : Scalar) : Reply Item :=
  (placed start (fun _ => v) (exactly w.toList start)).onComplaint fun _ => noValue

/-- Reads a number or a date, which begin alike; the last reading that fails makes the complaint. -/
def numberOrDate (s : Input) : Reply Item :=
  (placed s (fun _ => .dateTime) (dateTime s)).orElse fun _ =>
    (placed s .float (float s)).orElse fun _ => placed s .integer (integer s)

/-- What a number should begin with. -/
def wantedDigit : List Wanted := [.described "leading digit"]

/-- **Reads a value** whose parts are read by `inner`; without `inner` it may have none. -/
def valueOver (inner : Option (Input → Reply Item)) (s : Input) : Reply Item :=
  match s with
  | [] => .tentative [] {}
  | c :: r =>
    if c = quote ∨ c = apostrophe then placed s .string (text s)
    else if c = '[' then
      match inner with
      | some value => arrayRest value s r
      | none => .breaks s depthMessage
    else if c = '\x7b' then
      match inner with
      | some value => inlineRest value s r
      | none => .breaks s depthMessage
    else if c = '+' ∨ c = '-' ∨ isDigit c then numberOrDate s
    else if c = '_' then (placed s .integer (integer s)).wanting wantedDigit
    else if c = '.' then (placed s .float (float s)).wanting wantedDigit
    else if c = 't' then (word s "true" (.boolean true)).commit
    else if c = 'f' then (word s "false" (.boolean false)).commit
    else if c = 'i' then word s "inf" (.float (.infinite false))
    else if c = 'n' then word s "nan" (.float .notANumber)
    else .tentative s noValue

/-- **Reads a value** that nests at most `depth` levels deep. -/
def value : Nat → Input → Reply Item
  | 0 => valueOver none
  | depth + 1 => valueOver (some (value depth))

end QualityGate.Toml
