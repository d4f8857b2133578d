import KindCache.Selector.Basic

/-!
# The text of a selector

`Selector.text` writes the requirements with commas between them: `key=value`,
`key!=value`, `key in (a,b)`, `key notin (a,b)`, `key` and `!key`. The values
of a set stand in ascending order.
-/

namespace KindCache

/-- The values of a set with commas between them. -/
def ValueSet.text (s : ValueSet) : String :=
  String.intercalate "," s.values

/-- The text of a requirement. -/
def Requirement.text : Requirement → String
  | .oneOf key values => key ++ " in (" ++ values.text ++ ")"
  | .noneOf key values => key ++ " notin (" ++ values.text ++ ")"
  | .equal key value => key ++ "=" ++ value
  | .notEqual key value => key ++ "!=" ++ value
  | .present key => key
  | .absent key => "!" ++ key

/-- The text of a selector. -/
def Selector.text (s : Selector) : String :=
  String.intercalate "," (s.requirements.map Requirement.text)

end KindCache
