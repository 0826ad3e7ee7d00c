import LanguageHost.Text.CharTable

/-!
Decimal digits of all scripts. In each script ten of them stand in a row, from zero to nine.
-/
namespace LanguageHost.Text

/-- The digit zero of each script. -/
def digitZeros : CharSet := .ofRows [
  "30 660 6f0 7c0 966 9e6 a66 ae6 b66 be6 c66 ce6 d66 de6 e50 ed0 f20 1040 1090 17e0 1810 1946",
  "19d0 1a80 1a90 1b50 1bb0 1c40 1c50 a620 a8d0 a900 a9d0 a9f0 aa50 abf0 ff10 104a0 10d30 10d40",
  "11066 110f0 11136 111d0 112f0 11450 114d0 11650 116c0 116d0 116da 11730 118e0 11950 11bf0 11c50",
  "11d50 11da0 11f50 16130 16a60 16ac0 16b50 16d70 1ccf0 1d7ce 1d7d8 1d7e2 1d7ec 1d7f6 1e140 1e2f0",
  "1e4f0 1e5f1 1e950 1fbf0"]

def isDecimalDigit (c : Char) : Bool :=
  digitZeros.runs.any fun zero => zero.first ≤ c.toNat && c.toNat < zero.first + 10

end LanguageHost.Text
