import LanguageHost.Text.Mark

/-!
The direction in which characters are written, and the rule that a label of a domain keeps where some
label is written from right to left, so that none can be mistaken for another.
-/
namespace LanguageHost.Text

inductive Direction where
  | leftToRight | rightToLeft | arabicLetter | arabicNumber | europeanNumber
  /-- a sign between or before the digits of a number -/
  | numberSign
  | numberSeparator | numberTerminator
  | neutral
  /-- a character that does not show -/
  | invisible
  /-- a mark, which takes the direction of the character before it -/
  | nonspacingMark
deriving DecidableEq, Repr

/-- Letters that are written from right to left. -/
def rightToLeftLetters : CharSet := .ofRows [
  "5be 5c0 5c3 5c6 5d0-5ea 5ef-5f4 7c0-7ea 7f4-7f5 7fa 7fe-815 81a 824 828 830-83e 840-858 85e",
  "10800-10805 10808 1080a-10835 10837-10838 1083c 1083f-10855 10857-1089e 108a7-108af 108e0-108f2",
  "108f4-108f5 108fb-1091b 10920-10939 1093f-10959 10980-109b7 109bc-109cf 109d2-10a00 10a10-10a13",
  "10a15-10a17 10a19-10a35 10a40-10a48 10a50-10a58 10a60-10a9f 10ac0-10ae4 10aeb-10af6 10b00-10b35",
  "10b40-10b55 10b58-10b72 10b78-10b91 10b99-10b9c 10ba9-10baf 10c00-10c48 10cc0-10cf2 10cfa-10cff",
  "10d4a-10d4f 10d6f-10d85 10d8e-10d8f 10e80-10ea9 10ead 10eb0-10eb1 10f00-10f27 10f70-10f81",
  "10f86-10f89 10fb0-10fcb 10fe0-10ff6 1e800-1e8c4 1e8c7-1e8cf 1e922-1e943 1e94b 1e950-1e959",
  "1e95e-1e95f"]

/-- Letters of Arabic and its relatives. -/
def arabicLetters : CharSet := .ofRows [
  "608 60b 60d 61b 61d-64a 66d-66f 671-674 679-6d5 6e5-6e6 6ee-6ef 6fa-70d 710 712-72f 74d-7a5 7b1",
  "860-86a 870-88f 8a0-8c9 fbb2-fbc2 fe73 10d00-10d23 10ec2-10ec7 10f30-10f45 10f51-10f59",
  "1ec71-1ecb4 1ed01-1ed3d"]

/-- Digits of Arabic. -/
def arabicDigits : CharSet := .ofRows [
  "660-669 66b-66c 10d30-10d39 10d40-10d49 10e60-10e7e"]

/-- Digits that are written from left to right. -/
def europeanDigits : CharSet := .ofRows [
  "30-39 6f0-6f9 102e1-102fb"]

/-- Signs of numbers. -/
def numberSigns : CharSet := .ofRows [
  "2b 2d 2212"]

/-- Separators inside numbers. -/
def numberSeparators : CharSet := .ofRows [
  "2c 2e-2f 3a 60c 2044"]

/-- Signs that end a number. -/
def numberTerminators : CharSet := .ofRows [
  "23-25 a2-a5 b0-b1 58f 609-60a 66a 9f2-9f3 9fb af1 bf9 e3f 17db 2030-2032 20a0-20a7 20a9-20c1",
  "212e 2213 a838-a839 11fdd-11fe0 1e2ff"]

/-- Characters without a direction of their own. -/
def neutralCharacters : CharSet := .ofRows [
  "21-22 26-2a 3b-40 5b-60 7b-7e a1 a6-a7 a9 ab-ac ae b6-b7 bb bf d7 f7 2b9-2ba 2c2-2cf 2d2-2d7",
  "2de-2df 2e5-2ed 2ef-2ff 375 3f6 58a 58d-58e 606-607 60e-60f 6de 6e9 7f6-7f9 bf3-bf8 bfa c78-c7e",
  "f3a-f3d 1390-1399 1400 169b-169c 17f0-17f9 1800-180a 1940 1944-1945 19de-19ff 2010 2012-2016",
  "2018-2023 2027 2035 2038-203b 203d 203f-2043 2045-2046 204a-2056 2058-205e 2104 2108 2114",
  "2117-2118 211e-211f 2123 2125 2127 2129 213a 2141-2144 214a-214d 218a-218b 2190-2211 2214-222b",
  "222e 2231-2328 232b-2335 237b-2394 2396-2429 2440-244a 24eb-26ab 26ad-27ff 2900-2a0b 2a0d-2a73",
  "2a77-2adb 2add-2b73 2b76-2bff 2ce5-2cea 2cf9-2cff 2e00-2e5d 2e80-2e99 2e9b-2e9e 2ea0-2ef2 3001",
  "3003-3004 3008-3020 3030 3037 303d-303f 30a0 30fb 31c0-31e5 4dc0-4dff a490-a4c6 a60d-a60f a673",
  "a67e-a67f a700-a721 a788 a828-a82b a874-a877 ab6a-ab6b fbc3-fbd2 fd3e-fd4f fd90-fd91 fdc8-fdcf",
  "fdfd-fdff fe45-fe46 10101 10140-1018c 10190-1019c 101a0 1091f 10b39-10b3f 10d6e 10ed0-10ed8",
  "11052-11065 11660-1166c 11fd5-11fdc 11fe1-11ff1 16fe2 1cc00-1ccd5 1ccfa-1ccfc 1cd00-1ceb3",
  "1ceba-1ced0 1cee0-1cef0 1d1e9-1d1ea 1d200-1d241 1d245 1d300-1d356 1eef0-1eef1 1f000-1f02b",
  "1f030-1f093 1f0a0-1f0ae 1f0b1-1f0bf 1f0c1-1f0cf 1f0d1-1f0f5 1f10b-1f10f 1f12f 1f16d-1f16f 1f1ad",
  "1f260-1f265 1f300-1f6d8 1f6dc-1f6ec 1f6f0-1f6fc 1f700-1f7d9 1f7e0-1f7eb 1f7f0 1f800-1f80b",
  "1f810-1f847 1f850-1f859 1f860-1f887 1f890-1f8ad 1f8b0-1f8bb 1f8c0-1f8c1 1f8d0-1f8d8 1f900-1fa57",
  "1fa60-1fa6d 1fa70-1fa7c 1fa80-1fa8a 1fa8e-1fac6 1fac8 1facd-1fadc 1fadf-1faea 1faef-1faf8",
  "1fb00-1fb92 1fb94-1fbef 1fbfa"]

/-- Characters that do not show. -/
def invisibleCharacters : CharSet := .ofRows [
  "0-8 e-1b 7f 200c-200d"]

/-- Marks that have a direction of their own, from left to right. -/
def directedMarks : CharSet := .ofRows ["cbf cc6 11a07-11a08 11c3f"]

/-- The one mark that takes room and yet follows the direction of the character before it. -/
def followingMark : Char := Char.ofNat 0x1171E

def directions : List (Direction × CharSet) := [
  (.rightToLeft, rightToLeftLetters), (.arabicLetter, arabicLetters), (.arabicNumber, arabicDigits),
  (.europeanNumber, europeanDigits), (.numberSign, numberSigns), (.numberSeparator, numberSeparators),
  (.numberTerminator, numberTerminators), (.neutral, neutralCharacters),
  (.invisible, invisibleCharacters)]

def direction (c : Char) : Direction :=
  match directions.find? fun (_, s) => s.contains c with
  | some (d, _) => d
  | none =>
    if directedMarks.contains c then .leftToRight
    else if c = followingMark ∨ nonspacingMarks.contains c then .nonspacingMark
    else .leftToRight

namespace Direction

/-- Whether a character makes the text around it run from right to left. -/
def isFromRight (d : Direction) : Bool := d matches .rightToLeft | .arabicLetter | .arabicNumber

/-- What either kind of label may hold. -/
def isShared (d : Direction) : Bool :=
  d matches .europeanNumber | .numberSign | .numberSeparator | .numberTerminator | .neutral | .invisible
    | .nonspacingMark

/-- The last direction, less the marks at the end. -/
def last? (ds : List Direction) : Option Direction := (ds.reverse.dropWhile (· == .nonspacingMark)).head?

/-- A label runs in the direction of its first letter, holds nothing of the other one, ends in a letter
or a digit, and does not mix the two kinds of digits. -/
def isSound (ds : List Direction) : Bool :=
  match ds with
  | [] => true
  | .leftToRight :: _ =>
    ds.all (fun d => d == .leftToRight || d.isShared) &&
      (last? ds matches some .leftToRight | some .europeanNumber)
  | .rightToLeft :: _ | .arabicLetter :: _ =>
    ds.all (fun d => d.isFromRight || d.isShared) &&
      (last? ds matches some .rightToLeft | some .arabicLetter | some .europeanNumber
        | some .arabicNumber) &&
      !(ds.contains .europeanNumber && ds.contains .arabicNumber)
  | _ => false

end Direction

end LanguageHost.Text
