import Tileboard.Value.Rendering
import Tileboard.Number.Places

namespace Tileboard

inductive Fault where
  -- filters
  | notAFilter (found : Value)
  | notAFilterList (group : String) (found : Value)
  | noOperator (column : Value)
  | badPattern (operand : Value) (reason : String)
  | patternTooLarge
  | patternAlphabets
  | unknownComparison (name : String)
  -- record sources
  | outsideDirectory (source : String)
  | unsupportedFile (suffix : String)
  | missingSource (source : String)
  | nulInPath
  | emptyTable
  | brokenTable
  | badWorkbook
  | badDocument
  | noSuchFile
  | isDirectory
  -- values of the wrong shape
  | notARecord (found : Value) (wanted : String)
  | unhashable (found : Value)
  | notSubscriptable (found : Value)
  | notIterable (found : Value)
  | missingKey (key : String)
  | wrongType
  -- numbers and dates
  | notRoundable
  | unitTooGreat
  | numberTooLarge
  | notANumber
  | dateOutOfRange
  | missingSpan
  | badTitle
  | notADate
  -- workspaces
  | noSuchName
  | noSuchPart
  | notAGroup
  deriving Inhabited

namespace Fault

def kind : Fault → String
  | .notAFilter _ | .notAFilterList .. | .noOperator _ | .badPattern .. => "FilterError"
  | .patternTooLarge | .numberTooLarge => "OverflowError"
  | .patternAlphabets | .unknownComparison _ | .outsideDirectory _ | .unsupportedFile _ =>
      "ValueError"
  | .nulInPath | .badWorkbook | .badDocument | .notANumber | .notADate => "ValueError"
  | .missingSource _ | .noSuchFile => "FileNotFoundError"
  | .isDirectory => "IsADirectoryError"
  | .emptyTable => "EmptyDataError"
  | .brokenTable => "ParserError"
  | .notARecord .. => "AttributeError"
  | .unhashable _ | .notSubscriptable _ | .notIterable _ | .wrongType => "TypeError"
  | .missingKey _ => "KeyError"
  | .notRoundable => "InvalidOperation"
  | .unitTooGreat => "Overflow"
  | .dateOutOfRange => "OutOfBoundsDatetime"
  | .missingSpan => "AssertionError"
  | .badTitle => "SchemaValidationError"
  | .noSuchName => "NoSuchName"
  | .noSuchPart => "IndexError"
  | .notAGroup => "AttributeError"

-- The message of a fault in a configuration or a source name. Other faults are
-- known by their kind alone.
def message? : Fault → Option String
  | .notAFilter found => some ("filter must be a mapping, got " ++ found.kindName)
  | .notAFilterList group found =>
      some ("'" ++ group ++ "' expects a list of filters, got " ++ found.kindName)
  | .noOperator column => some ("filter on column " ++ column.shown ++ " has no recognised operator")
  | .badPattern operand reason => some ("invalid regex " ++ operand.shown ++ ": " ++ reason)
  | .unknownComparison name => some ("unknown ordering operator: " ++ name)
  | .outsideDirectory source =>
      some ("source " ++ (Value.text source).shown ++ " is outside the data directory")
  | .unsupportedFile suffix => some ("unsupported record file type: " ++ suffix)
  | .missingSource source => some ("record source not found: " ++ source)
  | _ => none

-- The text under which a fault is told. `wording` is what the language and its libraries say of the
-- faults without a message.
def text (wording : Fault → String) (f : Fault) : String := f.message?.getD (wording f)

-- Faults that lie in what was asked for, not in how it was answered.
def isRejection (f : Fault) : Bool :=
  ["FilterError", "ValueError", "FileNotFoundError", "EmptyDataError", "ParserError",
    "OutOfBoundsDatetime"].contains f.kind

def ofRounding : RoundingFault → Fault
  | .unitTooGreat => .unitTooGreat
  | .notRoundable => .notRoundable

end Fault

end Tileboard
