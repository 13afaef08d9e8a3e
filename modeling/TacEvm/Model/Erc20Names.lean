import TacEvm.Model.Erc20Genesis

/-!
# Names of tokens

The name of an ERC20 token is made fit for the metadata of a coin by expressions that match
characters of it.  All that are not of ASCII are removed, so the bytes of the name tell as much.

SOURCE: x/erc20/types/utils.go
-/

namespace TacEvm.Erc20Keeper

def isDigit (c : UInt8) : Bool := 48 ≤ c && c ≤ 57

/-- The digits at the start of every line. -/
def removeLeadingNumbers : (lineStart : Bool) → Bytes → Bytes
  | _, [] => []
  | lineStart, c :: cs =>
    if lineStart && isDigit c then removeLeadingNumbers true cs
    else c :: removeLeadingNumbers (c == 10) cs

/-- Letters, digits, slashes and hyphens. -/
def isNameCharacter (c : UInt8) : Bool := isLetter c || isDigit c || c == 47 || c == 45

/-- The first character is a letter, the others are filtered. -/
def removeSpecialChars : Bytes → Bytes
  | [] => []
  | c :: cs => (if isLetter c then [c] else []) ++ cs.filter isNameCharacter

/-- `removeInvalidPrefixes`, which are `ibc/` and `erc20/`. -/
def removeInvalidPrefixes : Bytes → Bytes
  | 105 :: 98 :: 99 :: 47 :: str => removeInvalidPrefixes str
  | 101 :: 114 :: 99 :: 50 :: 48 :: 47 :: str => removeInvalidPrefixes str
  | str => str

/-- x/erc20/types/utils.go:14-53 -/
def sanitizeERC20Name (name : Bytes) : Bytes :=
  removeInvalidPrefixes ((removeSpecialChars (removeLeadingNumbers true name)).take 128)

end TacEvm.Erc20Keeper
