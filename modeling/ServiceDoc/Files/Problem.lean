/-! What can go wrong with a file. -/
namespace ServiceDoc.Files

inductive Problem where
  | notFound
  | notDirectory
  | isDirectory
  | exists
  | nameTooLong
  | nameHoldsNul
  /-- One that only a real disk has. -/
  | other (text : String)
deriving DecidableEq, Repr

def Problem.message : Problem → String
  | .notFound => "No such file or directory (os error 2)"
  | .notDirectory => "Not a directory (os error 20)"
  | .isDirectory => "Is a directory (os error 21)"
  | .exists => "File exists (os error 17)"
  | .nameTooLong => "File name too long (os error 36)"
  | .nameHoldsNul => "file name contained an unexpected NUL byte"
  | .other text => text

end ServiceDoc.Files
