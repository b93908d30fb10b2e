/-!
The kinds of failure that a caller can tell apart.
-/

namespace RelationalAccess

/-- What kind of failure an error is. -/
inductive ErrorKind where
  | io
  | parse
  | notFound
  | invalidModel
  | invalidArgument
  | invalidState
  | unexpectedNull
  | invalidType
  | notImplemented
  | aggregation
  | backend
  deriving DecidableEq

namespace ErrorKind

def name : ErrorKind → String
  | io => "Io"
  | parse => "Parse"
  | notFound => "NotFound"
  | invalidModel => "InvalidModel"
  | invalidArgument => "InvalidArgument"
  | invalidState => "InvalidState"
  | unexpectedNull => "UnexpectedNull"
  | invalidType => "InvalidType"
  | notImplemented => "NotImplemented"
  | aggregation => "Aggregation"
  | backend => "Backend"

def all : List ErrorKind :=
  [io, parse, notFound, invalidModel, invalidArgument, invalidState, unexpectedNull, invalidType,
    notImplemented, aggregation, backend]

end ErrorKind

end RelationalAccess
