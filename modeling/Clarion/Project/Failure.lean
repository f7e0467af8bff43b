import Clarion.Mask
import Clarion.Path

/-! What can go wrong when projects and solutions are read. -/
namespace Clarion

/-- What is wrong with the text of a project file. -/
inductive MarkupFault where
  | tag
  | attributeList
  | attributeValue
  | text
  | unclosed
deriving Repr, DecidableEq

/-- What a faulty project file is told. -/
def MarkupFault.message : MarkupFault → String
  | .tag => "XML parse error"
  | .attributeList => "Attribute error"
  | .attributeValue => "Attribute value error"
  | .text => "Text error"
  | .unclosed => "Unexpected end of document"

/-- Why a project or solution cannot be used. -/
inductive Failure where
  | io (reason : String)
  | pathNotFound (path : Path)
  | redirectionNotFound (path : Path)
  | includeCycle (path : Path)
  | includeTooDeep (path : Path) (depth : Nat)
  | invalidProject (path : Path) (fault : MarkupFault)
  | invalidMask (mask : String) (fault : MaskFault)
  | projectNotFound (name : String)
  | noSolution
deriving Repr, DecidableEq

namespace Failure

/-- The name of a failure's kind. -/
def kind : Failure → String
  | .io _ => "Io"
  | .pathNotFound _ => "PathNotFound"
  | .redirectionNotFound _ => "RedirectionFileNotFound"
  | .includeCycle _ => "IncludeCycle"
  | .includeTooDeep _ _ => "IncludeDepthExceeded"
  | .invalidProject _ _ => "Xml"
  | .invalidMask _ _ => "Pattern"
  | .projectNotFound _ => "ProjectNotFound"
  | .noSolution => "SolutionNotLoaded"

/-- The text of a failure. -/
def message : Failure → String
  | .io reason => "IO error: " ++ reason
  | .pathNotFound path => "Path does not exist: " ++ path.text
  | .redirectionNotFound path => "Redirection file not found: " ++ path.text
  | .includeCycle path => "Redirection include cycle at " ++ path.text
  | .includeTooDeep path depth =>
    "Redirection include depth " ++ toString depth ++ " exceeded at " ++ path.text
  | .invalidProject path fault => "Invalid project file " ++ path.text ++ ": " ++ fault.message
  | .invalidMask mask fault =>
    "Invalid pattern '" ++ mask ++ "': error parsing glob '" ++ mask ++ "': " ++ fault.message
  | .projectNotFound name => "Project not found in solution: " ++ name
  | .noSolution => "No solution loaded"

end Failure
end Clarion
