import P2PFileTransfer.Core.Protocol
import P2PFileTransfer.Foundation.NumberText
import P2PFileTransfer.Foundation.TextSearch

/-!
# Bandwidth strings

A plain number is tried first.  Then the unit is looked up at the end of the text, and every
copy of it is taken away before the number is parsed.
-/

namespace P2PFileTransfer.Core.ParseBandwidth

open P2PFileTransfer.Foundation.NumberText
open P2PFileTransfer.Foundation.TextSearch
open P2PFileTransfer.Foundation.Utf8 (Text)

/-- The parts of an error text. -/
abbrev Message := Protocol.Text

/-- The letter of a unit; it is written alone or with a `b`. -/
inductive Letter where
  | g
  | m
  | k
  deriving DecidableEq, Repr

def Letter.char : Letter → Char
  | .g => 'g'
  | .m => 'm'
  | .k => 'k'

def Letter.multiplier : Letter → Nat
  | .g => 1024 * 1024 * 1024
  | .m => 1024 * 1024
  | .k => 1024

def Letter.short (letter : Letter) : Text := [letter.char]

def Letter.long (letter : Letter) : Text := [letter.char, 'b']

def Letter.ends (letter : Letter) (text : Text) : Bool :=
  letter.long.isSuffixOf text || letter.short.isSuffixOf text

def unlimited : Text := ['u', 'n', 'l', 'i', 'm', 'i', 't', 'e', 'd']

def unitOf (text : Text) : Option Letter :=
  if Letter.g.ends text then some .g
  else if Letter.m.ends text then some .m
  else if Letter.k.ends text then some .k
  else none

def numStr (letter : Letter) (text : Text) : Text :=
  trimEndMatches letter.short (trimEndMatches letter.long text)

/-- What is done with the text once it is trimmed and in lower case. -/
def parseLowered (text : Text) : Except Message Nat :=
  if text = unlimited ∨ text = ['0'] then .ok 0
  else
    match parseU64 text with
    | some bytes => .ok bytes
    | none =>
        match unitOf text with
        | none => .error [.text "Invalid bandwidth format: ", .text (String.ofList text),
            .text ". Use K, M, or G suffix (e.g., '10M', '1G')"]
        | some letter =>
            match parseF64 (numStr letter text) with
            | none => .error [.text "Invalid number in bandwidth: ", .text (String.ofList text)]
            | some num =>
                if num.isNegative then .error [.text "Bandwidth cannot be negative"]
                else .ok (num.timesAsU64 letter.multiplier)

def parseBandwidth (toLowercase : Text → Text) (text : Text) : Except Message Nat :=
  parseLowered (toLowercase (trim text))

end P2PFileTransfer.Core.ParseBandwidth
