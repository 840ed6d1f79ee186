import Mathlib.Algebra.Ring.Nat
import LakeFsAuth.Library.UrlSegments

/-! The reader of `application/x-www-form-urlencoded` text. Bytes that are not UTF-8 are
replaced, each longest piece of a character by one mark. -/
namespace LakeFsAuth.Library.Form
open Url

/-- How many bytes follow the first one of a character, and between what the second one is. -/
def lead (byte : UInt8) : Option (Nat × Nat × Nat) :=
  let n := byte.toNat
  if n < 0xC2 then none
  else if n ≤ 0xDF then some (1, 0x80, 0xBF)
  else if n = 0xE0 then some (2, 0xA0, 0xBF)
  else if n = 0xED then some (2, 0x80, 0x9F)
  else if n ≤ 0xEF then some (2, 0x80, 0xBF)
  else if n = 0xF0 then some (3, 0x90, 0xBF)
  else if n ≤ 0xF3 then some (3, 0x80, 0xBF)
  else if n = 0xF4 then some (3, 0x80, 0x8F)
  else none

def isBetween (low high : Nat) (byte : UInt8) : Bool := low ≤ byte.toNat && byte.toNat ≤ high

/-- How many of the bytes go on with a character. -/
def following (count low high : Nat) : List UInt8 → Nat
  | [] => 0
  | byte :: rest =>
      if isBetween low high byte then
        1 + ((rest.take (count - 1)).takeWhile (isBetween 0x80 0xBF)).length
      else 0

def scalar (count : Nat) (byte : UInt8) (rest : List UInt8) : Char :=
  Char.ofNat ((rest.take count).foldl (fun sum byte => 64 * sum + byte.toNat % 64)
    (byte.toNat % 2 ^ (6 - count)))

/-- U+FFFD. -/
def replacement : Char := Char.ofNat 0xFFFD

def repair : Nat → List UInt8 → List Char
  | 0, _ | _ + 1, [] => []
  | fuel + 1, byte :: rest =>
      if byte < 0x80 then Char.ofNat byte.toNat :: repair fuel rest
      else match lead byte with
        | none => replacement :: repair fuel rest
        | some (count, low, high) =>
            if following count low high rest = count then
              scalar count byte rest :: repair fuel (rest.drop count)
            else replacement :: repair fuel (rest.drop (following count low high rest))

/-- `String::from_utf8_lossy`. -/
def utf8Lossy (bytes : List UInt8) : String :=
  (String.fromUTF8? ⟨bytes.toArray⟩).getD (String.ofList (repair bytes.length bytes))

/-- A name or a value. -/
def decode (text : Text) : String :=
  utf8Lossy (percentDecode (text.map fun ch => if ch = '+' then ' ' else ch))

/-- A name, and what follows its `=`. -/
def pair (piece : Text) : String × String :=
  (decode (piece.takeWhile (· != '=')), decode (piece.dropWhile (· != '=')).tail)

/-- `form_urlencoded::parse`. -/
def parse (text : Text) : List (String × String) :=
  ((text.splitOn '&').filter (· ≠ [])).map pair

end LakeFsAuth.Library.Form
