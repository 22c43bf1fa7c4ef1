import ContractBindings.Text.Quoted

/-! # Failures of the file system -/

namespace ContractBindings.Files

inductive Cause where
  | notFound
  | alreadyThere
  | notADirectory
  | isADirectory
  | nameTooLong
  | notEmpty
deriving DecidableEq, Repr

def Cause.number : Cause → Nat
  | .notFound => 2
  | .alreadyThere => 17
  | .notADirectory => 20
  | .isADirectory => 21
  | .nameTooLong => 36
  | .notEmpty => 39

def Cause.text : Cause → String
  | .notFound => "No such file or directory"
  | .alreadyThere => "File exists"
  | .notADirectory => "Not a directory"
  | .isADirectory => "Is a directory"
  | .nameTooLong => "File name too long"
  | .notEmpty => "Directory not empty"

/-- What comes of an operation that is not carried out: a refusal, with the path that the operation was
about and, for a move, the path to move to; or a path that is none, since it holds a null
character. -/
inductive Failure where
  | refused (cause : Cause) (path : String) (target : Option String)
  | nullCharacter
deriving DecidableEq, Repr

def Failure.message : Failure → String
  | .nullCharacter => "embedded null byte"
  | .refused cause path target =>
    "[Errno " ++ toString cause.number ++ "] " ++ cause.text ++ ": " ++ Text.quoted path ++
      match target with
      | none => ""
      | some target => " -> " ++ Text.quoted target

end ContractBindings.Files
