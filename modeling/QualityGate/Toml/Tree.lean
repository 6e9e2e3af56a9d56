import QualityGate.Toml.Item
/-!
Adding to tables. A path of keys leads from a table to one within it; tables that are missing on the
way come about by being named. Every key is defined once: `Clash` says how a definition runs into an
earlier one.
-/

namespace QualityGate.Toml

/-! ### Clashes -/

/-- **How two definitions run into each other.** -/
inductive Clash where
  /-- A key is defined before; where it matters, in which table. -/
  | duplicate (key : String) (table : Option (List String))
  /-- A dotted key goes through an item that is no table. -/
  | notTable (path : List String) (kind : String)

/-- The message about a clash. -/
def Clash.message : Clash → String
  | duplicate key none => "duplicate key `" ++ key ++ "`"
  | duplicate key (some []) => "duplicate key `" ++ key ++ "` in document root"
  | duplicate key (some (t :: ts)) =>
    "duplicate key `" ++ key ++ "` in table `" ++ String.intercalate "." (t :: ts) ++ "`"
  | notTable path kind =>
    "dotted key `" ++ String.intercalate "." path ++ "` attempted to extend non-table type (" ++
      kind ++ ")"

/-! ### Keys as they are written -/

/-- A character of a key without quotes. -/
def isBareKeyChar (c : Char) : Bool :=
  ('a' ≤ c ∧ c ≤ 'z') ∨ ('A' ≤ c ∧ c ≤ 'Z') ∨ ('0' ≤ c ∧ c ≤ '9') ∨ c = '-' ∨ c = '_'

/-- A control character other than the tab. -/
def isControl (c : Char) : Bool :=
  (c.toNat < 0x20 ∧ c ≠ '\t') ∨ c.toNat = 0x7F

/-- A number in four hexadecimal digits. -/
def fourHex (n : Nat) : List Char :=
  let ds := Nat.toDigits 16 n |>.map Char.toUpper
  List.replicate (4 - ds.length) '0' ++ ds

/-- A character inside a basic string. -/
def basicEscaped (c : Char) : List Char :=
  if c = '\x22' then ['\\', '\x22']
  else if c = '\\' then ['\\', '\\']
  else if c = '\x08' then ['\\', 'b']
  else if c = '\t' then ['\\', 't']
  else if c = '\n' then ['\\', 'n']
  else if c = '\x0C' then ['\\', 'f']
  else if c = '\r' then ['\\', 'r']
  else if isControl c then ['\\', 'u'] ++ fourHex c.toNat
  else [c]

/-- A text as a basic string. -/
def basicString (s : String) : String :=
  String.ofList ('\x22' :: s.toList.flatMap basicEscaped ++ ['\x22'])

/-- **A key as it is best written**: bare where that is possible, else in the quotes that need no
escape. -/
def writtenKey (name : String) : String :=
  let cs := name.toList
  if cs ≠ [] ∧ cs.all isBareKeyChar then name
  else if !cs.any (fun c => isControl c || c = '\x22' || c = '\\') then basicString name
  else if !cs.any (fun c => isControl c || c = '\x27') then "'" ++ name ++ "'"
  else basicString name

/-! ### Following a path -/

/-- The names of some keys. -/
def names (ks : List Key) : List String :=
  ks.map (·.name)

/-- **Changes the table that a path leads to.** `walked` holds the keys already gone through. Tables
that are missing come about as implicit ones, `dotted` if a dotted key names them. A dotted key may
only go through tables that are themselves only named, and a path through a list of tables goes
into the last of them. -/
def Table.alter (dotted : Bool) (act : Table → Except Clash Table) (t : Table) (walked : List Key) :
    List Key → Except Clash Table
  | [] => act t
  | key :: rest =>
    match Entries.get? key.name t.entries with
    | none =>
      let fresh : Table := ⟨{ inline := t.form.inline, implicit := true, dotted := dotted }, []⟩
      match Table.alter dotted act fresh (walked ++ [key]) rest with
      | .error e => .error e
      | .ok u => .ok { t with entries := t.entries ++ [(key, .table u.form u.entries)] }
    | some (.table form entries) =>
      if form.inline && !t.form.inline then
        .error (.notTable (names (walked ++ [key])) "inline table")
      else if dotted && !form.implicit then .error (.duplicate key.name none)
      else
        match Table.alter dotted act ⟨form, entries⟩ (walked ++ [key]) rest with
        | .error e => .error e
        | .ok u =>
          .ok { t with entries := Entries.update key.name (.table u.form u.entries) t.entries }
    | some (.tables list) =>
      match list.getLast? with
      | none => .error (.duplicate key.name none)
      | some last =>
        match Table.alter dotted act ⟨last.1, last.2⟩ (walked ++ [key]) rest with
        | .error e => .error e
        | .ok u =>
          .ok { t with
            entries := Entries.update key.name (.tables (list.dropLast ++ [(u.form, u.entries)]))
              t.entries }
    | some item => .error (.notTable (names (walked ++ [key])) item.kindName)

/-- **Defines a key in a table.** `path` leads to the table from where the definition stands, and
`home` names that place in the message about a key defined before. -/
def Table.define (path : List Key) (home : Option (List String)) (key : Key) (item : Item)
    (t : Table) : Except Clash Table :=
  t.alter true
    (fun u =>
      if u.form.dotted = path.isEmpty then .error (.duplicate key.name none)
      else if (Entries.get? key.name u.entries).isSome then .error (.duplicate key.name home)
      else .ok { u with entries := u.entries ++ [(key, item)] })
    [] path

end QualityGate.Toml
