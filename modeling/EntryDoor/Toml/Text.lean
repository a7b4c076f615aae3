import EntryDoor.Text.Numeral

namespace EntryDoor.Toml

open Text

def isSpace (c : Char) : Bool := c == ' ' || c == '\t'

-- A character that may stand in a comment or, quotes and backslashes apart, in a string.
def isPlain (c : Char) : Bool :=
  c == '\t' || (' ' ≤ c && c != '\x7f')

def skipSpaces (s : List Char) : List Char := s.dropWhile isSpace

def newline? : List Char → Option (List Char)
  | '\n' :: r => some r
  | '\r' :: '\n' :: r => some r
  | _ => none

def hexDigit? (c : Char) : Option Nat :=
  if '0' ≤ c ∧ c ≤ '9' then some (c.toNat - '0'.toNat)
  else if 'a' ≤ c ∧ c ≤ 'f' then some (c.toNat - 'a'.toNat + 10)
  else if 'A' ≤ c ∧ c ≤ 'F' then some (c.toNat - 'A'.toNat + 10)
  else none

def codePoint? (digits : List Char) : Option Char := do
  let ds ← digits.mapM hexDigit?
  let n := ds.foldl (fun n d => n * 16 + d) 0
  if n.isValidChar then some (Char.ofNat n) else none

def escaped? : Char → Option Char
  | 'b' => some '\x08'
  | 't' => some '\t'
  | 'n' => some '\n'
  | 'f' => some '\x0c'
  | 'r' => some '\r'
  | '"' => some '"'
  | '\\' => some '\\'
  | _ => none

def consText (c : Char) : Option (List Char × List Char) → Option (List Char × List Char) :=
  Option.map fun (text, rest) => (c :: text, rest)

def basicBody : List Char → Option (List Char × List Char)
  | '"' :: r => some ([], r)
  | '\\' :: 'u' :: a :: b :: c :: d :: r => do
    let u ← codePoint? [a, b, c, d]
    consText u (basicBody r)
  | '\\' :: 'U' :: a :: b :: c :: d :: e :: f :: g :: h :: r => do
    let u ← codePoint? [a, b, c, d, e, f, g, h]
    consText u (basicBody r)
  | '\\' :: c :: r => do
    let e ← escaped? c
    consText e (basicBody r)
  | c :: r => if isPlain c && c != '\\' then consText c (basicBody r) else none
  | [] => none

def literalBody : List Char → Option (List Char × List Char)
  | '\'' :: r => some ([], r)
  | c :: r => if isPlain c then consText c (literalBody r) else none
  | [] => none

-- The end of a string over several lines: three quotes, before which up to two more belong to the text.
def closing? (quote : Char) (s : List Char) : Option (List Char × List Char) :=
  let run := (s.takeWhile (· == quote)).length
  let extra := min (run - 3) 2
  if run < 3 then none else some (List.replicate extra quote, s.drop (extra + 3))

def blankToLineEnd (s : List Char) : Bool :=
  (newline? (skipSpaces s)).isSome

-- The rest of a basic string over several lines. A backslash at the end of a line leaves out all blanks up to
-- the next character; `skipping` says whether that is under way.
def basicLines (skipping : Bool) : List Char → Option (List Char × List Char)
  | [] => none
  | '\\' :: 'u' :: a :: b :: c :: d :: r => do
    let u ← codePoint? [a, b, c, d]
    consText u (basicLines false r)
  | '\\' :: 'U' :: a :: b :: c :: d :: e :: f :: g :: h :: r => do
    let u ← codePoint? [a, b, c, d, e, f, g, h]
    consText u (basicLines false r)
  | '\r' :: '\n' :: r => if skipping then basicLines true r else consText '\n' (basicLines false r)
  | c :: r =>
    match closing? '"' (c :: r) with
    | some answer => some answer
    | none =>
      if skipping && (isSpace c || c == '\n') then basicLines true r
      else if c = '\n' then consText '\n' (basicLines false r)
      else if c = '\\' then
        if blankToLineEnd r then basicLines true r
        else
          match r with
          | e :: r => do
            let e ← escaped? e
            consText e (basicLines false r)
          | [] => none
      else if isPlain c then consText c (basicLines false r)
      else none

def literalLines : List Char → Option (List Char × List Char)
  | [] => none
  | '\r' :: '\n' :: r => consText '\n' (literalLines r)
  | c :: r =>
    match closing? '\'' (c :: r) with
    | some answer => some answer
    | none => if isPlain c || c == '\n' then consText c (literalLines r) else none

-- Basic strings have escapes, literal strings none. Between triple quotes either may run over several lines, and
-- a line break at their very start is left out.
def string? : List Char → Option (List Char × List Char)
  | '"' :: '"' :: '"' :: r => basicLines false ((newline? r).getD r)
  | '\'' :: '\'' :: '\'' :: r => literalLines ((newline? r).getD r)
  | '"' :: r => basicBody r
  | '\'' :: r => literalBody r
  | _ => none

def isBareKey (c : Char) : Bool :=
  c.isAlphanum || c == '_' || c == '-'

def simpleKey? : List Char → Option (List Char × List Char)
  | '"' :: r => basicBody r
  | '\'' :: r => literalBody r
  | s =>
    let key := s.takeWhile isBareKey
    if key = [] then none else some (key, s.dropWhile isBareKey)

def keys? : Nat → List Char → Option (List String × List Char)
  | 0, _ => none
  | fuel + 1, s => do
    let (key, r) ← simpleKey? (skipSpaces s)
    match skipSpaces r with
    | '.' :: r => do
      let (more, r) ← keys? fuel r
      some (String.ofList key :: more, r)
    | r => some ([String.ofList key], r)

end EntryDoor.Toml
