import ComponentTree.Text.Utf8

/-!
This module contains paths. A path keeps its spelling, which is what is printed, and is compared by
its components, so that repeated slashes, inner `.` steps and a trailing slash make no difference.
-/

namespace ComponentTree

structure Path where
  bytes : Bytes
deriving DecidableEq, Inhabited

namespace Path

inductive Component where
  | root
  | here
  | up
  | name (bytes : Bytes)
deriving DecidableEq

def slash : UInt8 := 0x2F

def ownName : Bytes := [0x2E]

def parentName : Bytes := [0x2E, 0x2E]

def isIdle (piece : Bytes) : Bool :=
  piece = [] || piece = ownName

def Component.ofPiece? (piece : Bytes) : Option Component :=
  if isIdle piece then none else if piece = parentName then some .up else some (.name piece)

def ofText (text : Text) : Path :=
  ⟨Text.Utf8.encode text⟩

def display (p : Path) : Text :=
  Text.Utf8.decodeLossy p.bytes

def pieces (p : Path) : List Bytes :=
  p.bytes.splitOn slash

def isAbsolute (p : Path) : Bool :=
  p.bytes.head? = some slash

def endsInSlash (p : Path) : Bool :=
  p.bytes.getLast? = some slash

def lead? (p : Path) : Option Component :=
  if p.isAbsolute then some .root else if p.pieces.head? = some ownName then some .here else none

/-- The components of a path, which are what paths are compared by. -/
def components (p : Path) : List Component :=
  p.lead?.toList ++ p.pieces.filterMap Component.ofPiece?

theorem nodup_components_nil : (([] : List Path).map components).Nodup :=
  List.nodup_nil

def Same (p q : Path) : Prop :=
  p.components = q.components

instance (p q : Path) : Decidable (p.Same q) :=
  inferInstanceAs (Decidable (p.components = q.components))

@[refl, simp] theorem Same.refl (p : Path) : p.Same p := rfl

@[symm] theorem Same.symm {p q : Path} (h : p.Same q) : q.Same p := Eq.symm h

theorem Same.trans {p q r : Path} (hpq : p.Same q) (hqr : q.Same r) : p.Same r := Eq.trans hpq hqr

theorem Same.iff_right {p q : Path} (h : p.Same q) (r : Path) : r.Same p ↔ r.Same q :=
  ⟨fun hp => hp.trans h, fun hq => hq.trans h.symm⟩

def fileName? (p : Path) : Option Bytes :=
  match p.components.getLast? with
  | some (.name name) => some name
  | _ => none

def label (p : Path) : Text :=
  match p.fileName? with
  | some name => Text.Utf8.decodeLossy name
  | none => p.display

def join (base p : Path) : Path :=
  if p.isAbsolute then p
  else if base.bytes = [] || base.endsInSlash then ⟨base.bytes ++ p.bytes⟩
  else ⟨base.bytes ++ slash :: p.bytes⟩

def child (base : Path) (name : Bytes) : Path :=
  base.join ⟨name⟩

/--
The path without its last component and all that follows the one before it, or nothing for the root
and the empty path. The front of the path is not a stretch to be dropped unless nothing else is
left.
-/
def parent? (p : Path) : Option Path :=
  let front := if p.lead?.isSome then p.bytes.take 1 else []
  let body := if p.lead?.isSome then p.bytes.drop 1 else p.bytes
  match (body.splitOn slash).reverse.dropWhile isIdle with
  | [] => if p.lead? = some .here then some ⟨[]⟩ else none
  | _ :: rest => some ⟨front ++ [slash].intercalate (rest.dropWhile isIdle).reverse⟩

/--
The absolute form of a path, found without looking at any file: `.` steps and repeated slashes are
dropped, while `..` steps, a trailing slash and exactly two slashes at the front stay. The empty
path has none.
-/
def absolute? (p workingDirectory : Path) : Option Path :=
  if p.bytes = [] then none
  else
    let start : Path :=
      if !p.isAbsolute then workingDirectory
      else if [slash, slash] <+: p.bytes ∧ ¬ [slash, slash, slash] <+: p.bytes then ⟨[slash, slash]⟩
      else ⟨[slash]⟩
    let full := (p.pieces.filter (!isIdle ·)).foldl child start
    some (if p.endsInSlash then full.join ⟨[]⟩ else full)

end Path

end ComponentTree
