/-!
# Pieces of texts

* `Text.split` : the pieces of a text between the places where a character stands, of which there is
  always one more than such places;
* `Text.joinWith` : pieces with a character between them.
-/

namespace SecretMount.Text

/-- The pieces of `s` between the occurrences of `c`. -/
def split (c : Char) (s : String) : List String := (s.toList.splitOn c).map String.ofList

/-- `pieces` with `c` between them. -/
def joinWith (c : Char) (pieces : List String) : String :=
  String.ofList ([c].intercalate (pieces.map String.toList))

theorem joinWith_split (c : Char) (s : String) : joinWith c (split c s) = s := by
  simp [joinWith, split, Function.comp_def, List.intercalate_splitOn]

end SecretMount.Text
