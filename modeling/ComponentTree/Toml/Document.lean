import ComponentTree.Toml.Value

/-!
This module contains the table that a TOML document describes. Statements are taken in order, and
the first one that cannot be carried out decides what is wrong with the document.
-/

namespace ComponentTree.Toml

inductive Flaw where
  | malformed
  | duplicateKey (span : Span)
deriving DecidableEq

structure KeyPath where
  parents : List Key
  last : Key

def KeyPath.ofLexemes (path : List Lexeme) : Except Flaw KeyPath := do
  if maxDepth < path.length then throw .malformed
  let keys ← path.mapM fun lexeme =>
    match lexeme.keyText? with
    | some name => .ok (Key.mk name lexeme.span)
    | none => .error .malformed
  match keys.getLast? with
  | some last => return ⟨keys.dropLast, last⟩
  | none => throw .malformed

inductive PathUse where
  | header
  | assignment
  | member
deriving DecidableEq

def PathUse.origin : PathUse → TableOrigin
  | header => .implied
  | assignment | member => .dotted

def PathUse.flaw? (use : PathUse) (origin : TableOrigin) (key : Key) : Option Flaw :=
  match origin, use with
  | .inline, .member => some (.duplicateKey key.span)
  | .inline, _ => some .malformed
  | .header, .header => none
  | .header, _ => some (.duplicateKey key.span)
  | .implied, _ | .dotted, _ => none

namespace Table

def descend (use : PathUse) (change : Table → Except Flaw Table) :
    (path : List Key) → Table → Except Flaw Table
  | [], t => change t
  | key :: path, t =>
    match t.find? key.name with
    | none => do
      let inner ← descend use change path (.empty use.origin)
      return t.insert key (inner.toValue key.span)
    | some (.table span origin members) =>
      match use.flaw? origin key with
      | some flaw => throw flaw
      | none => do
        let inner ← descend use change path ⟨origin, members⟩
        return t.replace key.name (inner.toValue span)
    | some (.array span true items) =>
      match items.getLast? with
      | some (.table itemSpan origin members) => do
        let inner ← descend use change path ⟨origin, members⟩
        return t.replace key.name (.array span true (items.dropLast ++ [inner.toValue itemSpan]))
      | _ => throw .malformed
    | some _ => throw .malformed

def assign (t : Table) (path : KeyPath) (value : Value) : Except Flaw Table :=
  let dotted := !path.parents.isEmpty
  let setLast (parent : Table) : Except Flaw Table :=
    if decide (parent.origin = .dotted) = dotted ∧ (parent.find? path.last.name).isNone then
      return parent.insert path.last value
    else throw (.duplicateKey path.last.span)
  t.descend (if t.origin = .inline then .member else .assignment) setLast path.parents

def openTable (t : Table) (span : Span) (path : KeyPath) (fill : Table → Except Flaw Table) :
    Except Flaw Table :=
  let setLast (parent : Table) : Except Flaw Table := do
    let members ←
      match parent.find? path.last.name with
      | none => .ok []
      | some (.table _ .implied members) => .ok members
      | some _ => .error (.duplicateKey path.last.span)
    let body ← fill ⟨.header, members⟩
    return (parent.erase path.last.name).insert path.last (body.toValue span)
  t.descend .header setLast path.parents

/--
Carry out the header `[[path]]`, where `fill` makes the assignments below it. Only when these are
done is the array looked for.
-/
def openElement (t : Table) (span : Span) (path : KeyPath) (fill : Table → Except Flaw Table) :
    Except Flaw Table := do
  let body ← fill (.empty .header)
  let pushLast (parent : Table) : Except Flaw Table :=
    match parent.find? path.last.name with
    | none => return parent.insert path.last (.array span true [body.toValue span])
    | some (.array arraySpan true items) =>
      return parent.replace path.last.name (.array arraySpan true (items ++ [body.toValue span]))
    | some _ => throw (.duplicateKey path.last.span)
  t.descend .header pushLast path.parents

end Table

def Value.ofRaw : RawValue → Except Flaw Value
  | .scalar lexeme =>
    match Scalar.ofLexeme? lexeme with
    | some s => .ok (.scalar lexeme.span s)
    | none => .error .malformed
  | .array span items => do
    return .array span false (← items.attach.mapM fun ⟨item, _⟩ => Value.ofRaw item)
  | .table span members => do
    let t ← members.attach.foldlM
      (fun t ⟨(path, value), _⟩ => do t.assign (← KeyPath.ofLexemes path) (← Value.ofRaw value))
      (Table.empty .inline)
    return t.toValue span
decreasing_by
  · simp only [RawValue.array.sizeOf_spec]
    have := List.sizeOf_lt_of_mem ‹_›
    omega
  · simp only [RawValue.table.sizeOf_spec]
    have := List.sizeOf_lt_of_mem ‹_›
    simp only [Prod.mk.sizeOf_spec] at this
    omega

structure RawAssignment where
  path : List Lexeme
  value : RawValue

structure Section where
  ofArray : Bool
  span : Span
  path : List Lexeme
  assignments : List RawAssignment

def Section.ofStatements : List Statement → List RawAssignment × List Section
  | [] => ([], [])
  | .assignment path value :: statements =>
    let (own, sections) := ofStatements statements
    (⟨path, value⟩ :: own, sections)
  | .header ofArray span path :: statements =>
    let (own, sections) := ofStatements statements
    ([], ⟨ofArray, span, path, own⟩ :: sections)

namespace Table

def fill (assignments : List RawAssignment) (t : Table) : Except Flaw Table :=
  assignments.foldlM
    (fun t a => do t.assign (← KeyPath.ofLexemes a.path) (← Value.ofRaw a.value)) t

def addSection (t : Table) (s : Section) : Except Flaw Table := do
  let path ← KeyPath.ofLexemes s.path
  let fillBody := fill s.assignments
  if s.ofArray then t.openElement s.span path fillBody else t.openTable s.span path fillBody

def ofDocument (document : Text) : Except Flaw Table :=
  match Statement.ofDocument? document with
  | none => throw .malformed
  | some statements => do
    let (own, sections) := Section.ofStatements statements
    sections.foldlM addSection (← fill own (.empty .header))

end Table

end ComponentTree.Toml
