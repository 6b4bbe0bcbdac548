/-
This file answers clients that send texts: the text of a document and, perhaps, the text of the
settings to validate it with. The answer is a verdict, also when a text cannot be read.
-/

import FlowGate.Verdict

namespace FlowGate.Client

/-- The verdict on settings that cannot be read. -/
def unreadableSettings (problem : String) : Verdict Violation :=
  .ofViolations
    [(DecodeError.mk "" s!"failed to parse validation options JSON: {problem}").violation]

/-- The verdict on the text of a document under the default settings. -/
def verdict (text : String) : Verdict Violation :=
  validateText .default text

/-- The verdict on the text of a document under settings given as text; the document is not read
if the settings cannot be. -/
def verdictUnder (text settings : String) : Verdict Violation :=
  match Options.form.read settings with
  | .ok options => validateText options text
  | .error fault => unreadableSettings (fault.message settings)

end FlowGate.Client
