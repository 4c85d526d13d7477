import WriteBehind.Log.Level
import WriteBehind.Text.Blank
import WriteBehind.Text.Utf8

namespace WriteBehind.Log

structure Directive where
  name : Option (List Char)
  level : Option Level
deriving DecidableEq

structure Filter where
  directives : List Directive := []
  text : Option (List Char) := none

namespace Filter

def set (f : Filter) (d : Directive) : Filter :=
  if f.directives.any (·.name = d.name) then
    { f with directives := f.directives.map fun e => if e.name = d.name then d else e }
  else { f with directives := f.directives ++ [d] }

def level? (s : List Char) : Option (Option Level) :=
  let word := s.map Char.toLower
  if word = "off".toList then some none
  else (Level.all.find? (·.choice.toList = word)).map some

def directive (part : List Char) : Except (List Char) Directive :=
  match part.splitOn '=' with
  | [name] =>
    match level? (Text.trim name) with
    | some level => .ok ⟨none, level⟩
    | none => .ok ⟨some name, some .trace⟩
  | [name, level] =>
    let level := Text.trim level
    if level = [] then .ok ⟨some name, some .trace⟩
    else match level? level with
      | some level => .ok ⟨some (Text.trim name), level⟩
      | none => .error level
  | _ => .error part

-- Reads a specification: directives with commas between them, and a text after a slash. Parts that
-- spell no directive are named and left out.
def parse (s : List Char) : List String × Filter :=
  let invalid (part : List Char) (why : String) : String :=
    s!"warning: invalid logging spec '{String.ofList part}'" ++ why ++ ", ignoring it"
  match s.splitOn '/' with
  | parts :: rest =>
    if 1 < rest.length then ([invalid s " (too many '/'s)"], {})
    else
      let parts := ((parts.splitOn ',').map Text.trim).filter (· ≠ [])
      parts.foldl (fun (ws, f) part => match directive part with
        | .ok d => (ws, f.set d)
        | .error bad => (ws ++ [invalid bad ""], f)) ([], { text := rest.head? })
  | [] => ([], {})

def forProgram (f : Filter) (level : Level) : Filter :=
  (f.set ⟨none, some level⟩).set ⟨some "experience_saver".toList, some level⟩

-- The directive that decides about a source: of those with the longest fitting name the last.
def deciding (f : Filter) (source : List Char) : Option Directive :=
  let size (d : Directive) : Nat := (d.name.map Text.width).getD 0
  let fitting := f.directives.filter fun d => (d.name.getD []).isPrefixOf source
  fitting.foldl (fun best d =>
    match best with
    | none => some d
    | some b => if size b ≤ size d then some d else best) none

def occurs (t : List Char) : List Char → Bool
  | [] => t.isEmpty
  | c :: s => t.isPrefixOf (c :: s) || occurs t s

def shows (f : Filter) (source : List Char) (level : Level) (message : List Char) : Bool :=
  (f.deciding source).any (fun d => d.level.any fun least => decide (least.Shown level))
    && f.text.all (occurs · message)

end Filter
end WriteBehind.Log
