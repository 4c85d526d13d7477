import WriteBehind.Json.Quoted

namespace WriteBehind.Json

inductive Value
  | null
  | boolean (b : Bool)
  | integer (n : Int)
  | decimal (digits exponent : Int)
  | text (s : List Char)
  | list (items : List Value)
  | object (members : List (List Char × Value))

namespace Value

def writeInt : Int → List Char
  | .ofNat n => Nat.toDigits 10 n
  | .negSucc n => '-' :: Nat.toDigits 10 (n + 1)

mutual

def write : Value → List Char
  | null => "null".toList
  | boolean b => (if b then "true" else "false").toList
  | integer n => writeInt n
  | decimal n e => writeInt n ++ 'e' :: writeInt e
  | text s => Quoted.write s
  | list vs => '[' :: writeItems vs ++ [']']
  | object ms => '{' :: writeMembers ms ++ ['}']

def writeItems : List Value → List Char
  | [] => []
  | [v] => v.write
  | v :: vs => v.write ++ ',' :: writeItems vs

def writeMembers : List (List Char × Value) → List Char
  | [] => []
  | [(n, v)] => Quoted.write n ++ ':' :: v.write
  | (n, v) :: ms => Quoted.write n ++ ':' :: v.write ++ ',' :: writeMembers ms

end

example : (object [("a".toList, list [integer (-1), null])]).write = "\x7b\"a\":[-1,null]\x7d".toList := by
  decide +kernel

end Value
end WriteBehind.Json
