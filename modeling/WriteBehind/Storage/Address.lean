import WriteBehind.Storage.Fault
import WriteBehind.Text.Hex
import WriteBehind.Text.Utf8

namespace WriteBehind.Storage

open Text (Utf8.decode Utf8.encode hexValue?)

inductive Mode
  | readOnly
  | readWrite
  | create
deriving DecidableEq, Repr

structure Address where
  path : List Char
  inMemory : Bool := false
  mode : Mode := .readWrite
  isImmutable : Bool := false
  system : Option (List Char) := none

namespace Address

def cutAll (word : List Char) (s : List Char) : List Char :=
  if word.isPrefixOf s ∧ word ≠ [] then cutAll word (s.drop word.length) else s
termination_by s.length
decreasing_by
  have : 0 < word.length := by cases word <;> simp_all
  have : word.length ≤ s.length := by
    have := List.isPrefixOf_iff_prefix.1 (by simp_all : word.isPrefixOf s = true)
    exact this.length_le
  simp only [List.length_drop]
  omega

-- The bytes of a text in which escapes stand for bytes. A percent sign that starts no escape stands
-- for itself.
def unescape : List Char → List UInt8
  | [] => []
  | '%' :: a :: b :: s =>
    match hexValue? a, hexValue? b with
    | some x, some y => (16 * x + y).toUInt8 :: unescape s
    | _, _ => Utf8.encode ['%'] ++ unescape (a :: b :: s)
  | c :: s => Utf8.encode [c] ++ unescape s

def plain (s : List Char) : List Char :=
  match Utf8.decode (unescape (s.map fun c => if c = '+' then ' ' else c)) with
  | .ok t => t
  | .error _ => ['\ufffd']

def parameters (s : List Char) : List (List Char × List Char) :=
  ((s.splitOn '&').filter (· ≠ [])).map fun part =>
    let name := part.takeWhile (· ≠ '=')
    (plain name, plain (part.drop (name.length + 1)))

def set (a : Address) (name value : List Char) : Except SqlFault Address :=
  let unknown : Except SqlFault Address := .error <| .configuration <|
    s!"unknown value {String.ofList (Text.quoted value)} for " ++ String.ofList ('`' :: name ++ ['`'])
  match String.ofList name with
  | "mode" =>
    match String.ofList value with
    | "ro" => .ok { a with mode := .readOnly }
    | "rw" => .ok a
    | "rwc" => .ok { a with mode := if a.mode = .readOnly then .readOnly else .create }
    | "memory" => .ok { a with inMemory := true }
    | _ => unknown
  | "cache" => if String.ofList value ∈ ["private", "shared"] then .ok a else unknown
  | "immutable" =>
    match String.ofList value with
    | "true" | "1" => .ok { a with isImmutable := true }
    | "false" | "0" => .ok { a with isImmutable := false }
    | _ => unknown
  | "vfs" => .ok { a with system := some value }
  | other => .error <| .configuration <|
    "unknown query parameter " ++ String.ofList ('`' :: other.toList ++ ['`'])
      ++ " while parsing connection URL"

def parse (s : List Char) : Except SqlFault Address := do
  let s := cutAll "sqlite:".toList (cutAll "sqlite://".toList s)
  let path := s.takeWhile (· ≠ '?')
  let start : Address ←
    if path = ":memory:".toList then pure { path, inMemory := true }
    else match Utf8.decode (unescape path) with
      | .ok path => pure { path }
      | .error e => throw (.configuration e.message)
  (parameters (s.drop (path.length + 1))).foldlM (fun a (name, value) => a.set name value) start

def ofFile (path : List Char) : Except SqlFault Address := parse ("sqlite:".toList ++ path)

end Address
end WriteBehind.Storage
