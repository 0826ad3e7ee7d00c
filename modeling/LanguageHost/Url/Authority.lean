import LanguageHost.Url.Basic
import LanguageHost.Url.Host

/-!
Reading who and where of a URL: credentials, host and port.
-/
namespace LanguageHost.Url

/-- The text before and after the last `@`. -/
def cutCredentials (cs : List Char) : Option (List Char) × List Char :=
  match Text.cut? '@' cs.reverse with
  | some (host, credentials) => (some credentials.reverse, host.reverse)
  | none => (none, cs)

/-- User and password; a password may be empty and none at all. -/
def cutPassword (credentials : List Char) : List Char × List Char :=
  (Text.cut? ':' credentials).getD (credentials, [])

/-- The host and what follows the colon after it; colons inside brackets do not count. -/
def cutPort (inside : Bool) : List Char → List Char × Option (List Char)
  | [] => ([], none)
  | c :: cs =>
    if c = ':' ∧ !inside then ([], some cs)
    else
      let inside := if c = '[' then true else if c = ']' then false else inside
      let (host, port) := cutPort inside cs
      (c :: host, port)

/-- A port, none where the scheme's usual one is meant, and the text behind it, which a backslash
begins. -/
def port? (scheme : String) : Option (List Char) → Option (Option Nat × List Char)
  | none => some (none, [])
  | some cs =>
    let digits := cs.takeWhile Text.isDigit
    let rest := cs.dropWhile Text.isDigit
    let n := Text.numeral 10 digits
    if !(rest.head?.all (· == '\\')) ∨ 65535 < n then none
    else if digits.isEmpty ∨ specialPort? scheme = some (some n) then some (none, rest)
    else some (some n, rest)

/-- The host, which only a scheme that is not special may leave empty. -/
def host? (scheme : String) (cs : List Char) : Option String :=
  if isSpecial scheme then specialHost? cs else if cs.isEmpty then some "" else opaqueHost? cs

/-- The authority that `cs` writes, and a path that follows its port at once. `atEnd` tells whether it is
the last part of the URL; only then may nothing at all stand around an `@`. -/
def authority? (scheme : String) (atEnd : Bool) (cs : List Char) : Option (Authority × List Char) := do
  let (credentials, rest) := cutCredentials cs
  let (user, password) := cutPassword (credentials.getD [])
  let (host, portText) := cutPort false rest
  let bareSign := credentials == some [] && rest.isEmpty && !atEnd
  let named := !user.isEmpty || !password.isEmpty || portText.isSome
  if host.isEmpty && (named || bareSign) then none
  else
    let name ← host? scheme host
    let (port, rest) ← port? scheme portText
    let escape (cs : List Char) : String := String.ofList (Percent.encode inUserinfo cs)
    pure (⟨escape user, if password.isEmpty then none else some (escape password), name, port⟩, rest)

end LanguageHost.Url
