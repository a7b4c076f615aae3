import EntryDoor.Toml.Text

namespace EntryDoor.Toml

open Text

-- Digits may be parted by single underscores.
def moreDigits (isDigit : Char → Bool) : List Char → List Char × List Char
  | '_' :: c :: r =>
    if isDigit c then
      let (ds, r) := moreDigits isDigit r
      (c :: ds, r)
    else ([], '_' :: c :: r)
  | c :: r =>
    if isDigit c then
      let (ds, r) := moreDigits isDigit r
      (c :: ds, r)
    else ([], c :: r)
  | [] => ([], [])

def digitGroup? (isDigit : Char → Bool) : List Char → Option (List Char × List Char)
  | c :: r =>
    if isDigit c then
      let (ds, r) := moreDigits isDigit r
      some (c :: ds, r)
    else none
  | [] => none

def sign : List Char → Bool × List Char
  | '-' :: r => (true, r)
  | '+' :: r => (false, r)
  | r => (false, r)

def decimal? (s : List Char) : Option (Bool × List Char × List Char) :=
  let (negative, r) := sign s
  match r with
  | '0' :: r => some (negative, ['0'], r)
  | r => (digitGroup? Char.isDigit r).map fun (ds, r) => (negative, ds, r)

def inWord (n : Int) : Option Int :=
  if -9223372036854775808 ≤ n ∧ n ≤ 9223372036854775807 then some n else none

def based? (base : Nat) (s : List Char) : Option (Int × List Char) := do
  let isDigit c := (hexDigit? c).any (· < base)
  let (ds, r) ← digitGroup? isDigit s
  let n := ds.foldl (fun n d => n * base + (hexDigit? d).getD 0) 0
  let n ← inWord n
  some (n, r)

def integer? : List Char → Option (Int × List Char)
  | '0' :: 'x' :: r => based? 16 r
  | '0' :: 'o' :: r => based? 8 r
  | '0' :: 'b' :: r => based? 2 r
  | s => do
    let (negative, ds, r) ← decimal? s
    let n : Int := Nat.ofDigitChars 10 ds 0
    let n ← inWord (if negative then -n else n)
    some (n, r)

def fractionDigits? : List Char → Option (List Char × List Char)
  | '.' :: r => digitGroup? Char.isDigit r
  | _ => none

def exponent? : List Char → Option ((Bool × List Char) × List Char)
  | c :: r =>
    if c = 'e' ∨ c = 'E' then
      let (negative, r) := sign r
      (digitGroup? Char.isDigit r).map fun (ds, r) => ((negative, ds), r)
    else none
  | [] => none

-- Whether a decimal number is too large for a float of 64 bits, which then would read as infinite. The bound is
-- half a step above the largest float. Zeros in front tell nothing about the size, and beyond a few hundred
-- digits the exponent alone decides.
def tooLarge (digits : List Char) (exponent : Int) : Bool :=
  let digits := digits.dropWhile (· == '0')
  let magnitude := (digits.length : Int) + exponent
  if digits = [] ∨ magnitude < 300 then false
  else if 320 < magnitude then true
  else
    let n := Nat.ofDigitChars 10 digits 0
    let bound := Nat.pow 2 1024 - Nat.pow 2 970
    if 0 ≤ exponent then bound ≤ n * Nat.pow 10 exponent.toNat
    else bound * Nat.pow 10 (-exponent).toNat ≤ n

def float? (s : List Char) : Option (String × List Char) :=
  let (negative, r) := sign s
  match r with
  | 'i' :: 'n' :: 'f' :: r => some ("inf", r)
  | 'n' :: 'a' :: 'n' :: r => some ("nan", r)
  | _ => do
    let (_, whole, r) ← decimal? s
    let fraction := fractionDigits? r
    let r' := (fraction.map (·.2)).getD r
    let exponent := exponent? r'
    let rest := (exponent.map (·.2)).getD r'
    if fraction.isNone && exponent.isNone then none
    else
      let decimals := (fraction.map (·.1)).getD []
      let (down, ds) := (exponent.map (·.1)).getD (false, [])
      let e : Int := Nat.ofDigitChars 10 ds 0
      let power := (if down then -e else e) - decimals.length
      if !negative && tooLarge (whole ++ decimals) power then none
      else some (String.ofList (s.take (s.length - rest.length)), rest)

end EntryDoor.Toml
