import ScoreOverlay.Settings.Validity
import ScoreOverlay.Text.Quoted

namespace ScoreOverlay

/-- What users are told when there is no answer. -/
inductive Error where
  /-- A setting has a value that is not allowed. -/
  | invalidSetting (violation : Settings.Violation)
  /-- A classifier gave up on a glyph. -/
  | classification (reason : String)
  /-- What runs a network failed. -/
  | runtime (reason : String)
  /-- The list of glyphs that a network knows could not be read. -/
  | glyphKeys (path reason : String)
deriving DecidableEq, Repr

def Error.message : Error → String
  | invalidSetting violation => violation.message
  | classification reason => "Glyph classification failed: " ++ reason
  | runtime reason => reason
  | glyphKeys path reason =>
    "Failed to read glyph keys from " ++ Text.quoted path ++ ": " ++ reason

/-- Why no answer is given. -/
inductive Failure where
  /-- A computation on coordinates stopped. -/
  | fault (fault : Fault)
  /-- An error is passed on as it is. -/
  | reported (error : Error)
deriving DecidableEq, Repr

def Failure.message : Failure → String
  | fault f => f.message
  | reported error => error.message

end ScoreOverlay
