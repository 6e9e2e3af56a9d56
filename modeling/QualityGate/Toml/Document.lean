import QualityGate.Toml.Value
/-!
Whole documents: lines that define keys, headers that open tables and lists of tables, comments and
blank lines. While lines are read, the table that is being filled is kept apart from the root, and is
put into its place when the next header or the end of the document is reached (`Draft.close`).
-/

namespace QualityGate.Toml

/-! ### A document in the making -/

/-- **What has been read of a document.** -/
structure Draft where
  /-- All tables but the one being filled. -/
  root : Table := {}
  /-- The table being filled. -/
  current : Table := { form := { span := none } }
  /-- Where the table being filled belongs; at the root if empty. -/
  path : List Key := []
  /-- Whether it belongs to a list of tables. -/
  inList : Bool := false

/-- The clash about the last key of a header. -/
def headerClash (path : List Key) (key : Key) : Clash :=
  .duplicate (writtenKey key.name) (some (names path))

namespace Draft

/-- Puts a table at a key: over one that was only named before, or as a new entry. -/
def placeTable (above : List Key) (key : Key) (t parent : Table) : Except Clash Table :=
  match Entries.get? key.name parent.entries with
  | none => .ok { parent with entries := parent.entries ++ [(key, .table t.form t.entries)] }
  | some (.table form _) =>
    if form.implicit && !form.inline then
      .ok { parent with entries := Entries.update key.name (.table t.form t.entries) parent.entries }
    else .error (headerClash above key)
  | some _ => .error (headerClash above key)

/-- Puts a table at the end of the list of tables at a key. -/
def appendTable (above : List Key) (key : Key) (t parent : Table) : Except Clash Table :=
  match Entries.get? key.name parent.entries with
  | none => .ok { parent with entries := parent.entries ++ [(key, .tables [(t.form, t.entries)])] }
  | some (.tables l) =>
    .ok { parent with
      entries := Entries.update key.name (.tables (l ++ [(t.form, t.entries)])) parent.entries }
  | some _ => .error (headerClash above key)

/-- **Puts the table being filled into its place.** -/
def close (d : Draft) : Except Clash Draft :=
  match d.path.getLast? with
  | none => .ok { root := d.current }
  | some key =>
    let above := d.path.dropLast
    let act := if d.inList then appendTable above key d.current else placeTable above key d.current
    match d.root.alter false act [] above with
    | .error e => .error e
    | .ok root => .ok { root := root }

/-- Makes room for the table that a header opens: a table that was only named before gives way, and
any other item at the key is a clash. -/
def vacate (above : List Key) (key : Key) (parent : Table) : Except Clash Table :=
  match Entries.get? key.name parent.entries with
  | none => .ok parent
  | some (.table form _) =>
    if form.implicit && !form.dotted && !form.inline then
      .ok { parent with entries := Entries.erase key.name parent.entries }
    else .error (headerClash above key)
  | some _ => .error (headerClash above key)

/-- The entries of the table at a key, if there is one. -/
def namedEntries (root : Table) : List Key → Entries
  | [] => []
  | [key] =>
    match Entries.get? key.name root.entries with
    | some (.table _ es) => es
    | _ => []
  | key :: rest =>
    match Entries.get? key.name root.entries with
    | some (.table form es) => namedEntries ⟨form, es⟩ rest
    | some (.tables l) =>
      match l.getLast? with
      | some t => namedEntries ⟨t.1, t.2⟩ rest
      | none => []
    | _ => []

/-- **Opens a table** by its header at `span`. A table that was only named before keeps what is in
it. -/
def openTable (d : Draft) (path : List Key) (span : Span) : Except Clash Draft :=
  match d.close with
  | .error e => .error e
  | .ok d =>
    match path.getLast? with
    | none => .ok d
    | some key =>
      let above := path.dropLast
      let entries := namedEntries d.root path
      match d.root.alter false (vacate above key) [] above with
      | .error e => .error e
      | .ok root =>
        .ok { root := root, current := ⟨{ span := some span }, entries⟩, path := path }

/-- Checks that a list of tables, or nothing yet, stands at a key. -/
def checkList (above : List Key) (key : Key) (parent : Table) : Except Clash Table :=
  match Entries.get? key.name parent.entries with
  | none => .ok { parent with entries := parent.entries ++ [(key, .tables [])] }
  | some (.tables _) => .ok parent
  | some _ => .error (headerClash above key)

/-- **Opens the next table of a list** by its header at `span`. -/
def openListTable (d : Draft) (path : List Key) (span : Span) : Except Clash Draft :=
  match d.close with
  | .error e => .error e
  | .ok d =>
    match path.getLast? with
    | none => .ok d
    | some key =>
      let above := path.dropLast
      match d.root.alter false (checkList above key) [] above with
      | .error e => .error e
      | .ok root =>
        .ok { root := root, current := ⟨{ span := some span }, []⟩, path := path, inList := true }

/-- **Defines a key** in the table being filled, which then reaches to the end of the value. -/
def define (d : Draft) (path : List Key) (item : Item) : Except Clash Draft :=
  match path.getLast? with
  | none => .ok d
  | some key =>
    let span :=
      match d.current.form.span, item.span? with
      | some s, some v => some (Span.mk s.start v.stop)
      | s, _ => s
    let current : Table := { d.current with form := { d.current.form with span := span } }
    match current.define path.dropLast (some (names d.path)) key item with
    | .error e => .error e
    | .ok t => .ok { d with current := t }

end Draft

/-! ### Lines -/

/-- Takes over a draft, or complains at `place` about a clash. -/
def orClash (place rest : Input) : Except Clash Draft → Reply Draft
  | .ok d => .ok d rest
  | .error c => .breaks place c.message

/-- **A line that defines a key.** -/
def definitionLine (d : Draft) (s : Input) : Reply Draft :=
  (dottedKey s).commit.andThen fun ks rest =>
    match rest with
    | '=' :: r =>
      (value (depthLimit - 1) (skipSpaces r)).commit.andThen fun v rest =>
        ((lineRest rest).wanting wantedAtLineRest).commit.andThen fun _ rest =>
          orClash s rest (d.define ks v)
    | _ => .committed rest { wanted := wantedAfterKey }

/-- What closes a header. -/
def headerEnd (list : Bool) : String :=
  if list then "]]" else "]"

/-- The rest of a header line whose first bracket is at `s` and whose key is at `inner`. -/
def headerRest (d : Draft) (list : Bool) (s inner : Input) : Reply Draft :=
  (dottedKey inner).commit.andThen fun ks rest =>
    ((exactly (headerEnd list).toList rest).wanting
        [.literal ".", .literal (headerEnd list)]).commit.andThen fun _ after =>
      ((lineRest after).wanting wantedAtLineRest).commit.andThen fun _ rest =>
        orClash s rest
          (if list then d.openListTable ks ⟨s, after⟩ else d.openTable ks ⟨s, after⟩)

/-- **A header line**, from its first bracket on. -/
def headerLine (d : Draft) (s : Input) : Reply Draft :=
  let reply : Reply Draft :=
    match s with
    | '[' :: '[' :: r => headerRest d true s r
    | '[' :: c :: r => headerRest d false s (c :: r)
    | _ => .committed s {}
  reply.labelled "table header"

/-- One line or part of a line that is not blank. -/
def line (d : Draft) (c : Char) (r : Input) : Reply Draft :=
  if c = '#' then ((lineEnd (skipComment (c :: r))).map fun _ => d).commit
  else if c = '[' then headerLine d (c :: r)
  else if c = '\n' ∨ c = '\r' then
    match afterNewline? (c :: r) with
    | some rest => .ok d rest
    | none => .tentative (c :: r) {}
  else definitionLine d (c :: r)

/-- The lines of a document, no more of them than `n`. -/
def linesOnto (d : Draft) : Nat → Input → Reply Draft
  | 0, s => .ok d s
  | n + 1, s =>
    match skipSpaces s with
    | [] => .ok d []
    | c :: r =>
      match line d c r with
      | .ok d rest => linesOnto d n rest
      | .tentative _ _ => .committed (c :: r) {}
      | .committed p m => .committed p m

/-! ### Documents -/

/-- The text after a byte order mark. -/
def dropMark : Input → Input
  | '\uFEFF' :: r => r
  | s => s

/-- What is wrong and where. -/
structure Fault where
  span : Span
  message : String

/-- **Reads a document.** -/
def document (s : Input) : Except Fault Table :=
  let body := dropMark s
  let fail (p : Input) (c : Complaint) : Except Fault Table :=
    .error ⟨⟨p, p.drop 1⟩, c.message⟩
  let start : Draft := { current := { form := { span := some ⟨body, body⟩ } } }
  match linesOnto start (body.length + 1) body with
  | .ok d _ =>
    match d.close with
    | .ok d => .ok d.root
    | .error c => .error ⟨⟨s, s⟩, c.message⟩
  | .tentative p c => fail p c
  | .committed p c => fail p c

end QualityGate.Toml
