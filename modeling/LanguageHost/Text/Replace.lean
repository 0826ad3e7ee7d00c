/-!
Replacing a mark wherever it stands in a list, from the front, without looking at what was put in.
-/
namespace LanguageHost.Text

/-- `new` in place of every `mark`; the first `skip` items belong to a mark already replaced. -/
def replaceFrom [BEq α] (mark new : List α) (skip : Nat) : List α → List α
  | [] => []
  | a :: rest =>
    match skip with
    | skip + 1 => replaceFrom mark new skip rest
    | 0 =>
      if mark.isPrefixOf (a :: rest) then new ++ replaceFrom mark new (mark.length - 1) rest
      else a :: replaceFrom mark new 0 rest

def replaceAll [BEq α] (mark new list : List α) : List α := replaceFrom mark new 0 list

def replace (mark new s : String) : String :=
  String.ofList (replaceAll mark.toList new.toList s.toList)

end LanguageHost.Text
