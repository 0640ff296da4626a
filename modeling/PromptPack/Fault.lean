/-! What can go wrong, by cause. The wording that users see is in `message?`; a cause that the
program does not word itself has none. -/

namespace PromptPack

inductive Fault where
  | unknownSettings (names : List String)
  | unknownStrategy (name : String)
  | unknownTokenizer (tokenizer profile : String)
  | noProfiles
  | missingField (name : String)
  | wrongType
  /-- A value of the right type that cannot be converted. -/
  | badValue
  | emptyNumber
  /-- A number that does not fit a double, or infinity where an integer is needed. -/
  | outOfRange
  | noSuchField
  | shutDown
  | malformedJson
  | malformedYaml
  | undecodable
  | noSuchFile
  | isDirectory
  /-- A configuration document was refused; a reason that is not worded here is left out. -/
  | invalidConfig (source : String) (reason : Option String)
deriving DecidableEq, Repr, Inhabited

namespace Fault

def message? : Fault → Option String
  | .unknownSettings names => some ("Unknown optimization settings: " ++ ", ".intercalate names)
  | .unknownStrategy name => some ("Unknown tokenizer strategy: " ++ name)
  | .unknownTokenizer tokenizer profile =>
    some s!"Unknown tokenizer '{tokenizer}' for profile '{profile}'"
  | .noProfiles => some "No model profiles registered"
  | .missingField name => some name
  | .invalidConfig source reason =>
    reason.map fun reason => s!"Invalid configuration in '{source}': {reason}"
  | _ => none

/-- Whether a value is to blame: one that cannot be what it is used as, or is none of those that are
known. A field that is missing and a number out of range are something else. -/
def concernsValue : Fault → Bool
  | .wrongType | .badValue | .unknownSettings _ | .unknownStrategy _ | .unknownTokenizer _ _
  | .malformedJson | .undecodable => true
  | _ => false

end Fault

end PromptPack
