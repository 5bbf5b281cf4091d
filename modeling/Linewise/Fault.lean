import Linewise.Text.Quoted

/-!
# Faults

What can go wrong, and how it is worded. A fault may have another one as its
cause; `Fault.chain` lists a fault with its causes, outermost first, and a fault
is classified by what its chain contains.

## Main definitions

* `SystemError` — why the file system refused a call.
* `Fault` — a failure and its causes.
* `Fault.chain` — the failure followed by its causes.
* `Fault.message` — the one place that words a failure.
* `Fault.kind` — the class a failure belongs to.
* `Fault.locate` — fills in the path of a failed read or write.
-/

namespace Linewise

/-- **Why the file system refused a call.** -/
inductive SystemError where
  /-- The path, or a directory on the way to it, does not exist. -/
  | notFound
  /-- A directory was used as a file. -/
  | isDirectory
  /-- A file was used as a directory. -/
  | notDirectory
  /-- A name in the path is longer than the file system allows. -/
  | nameTooLong
  /-- The path holds a zero byte. -/
  | invalidArgument
  /-- The caller may not do this. -/
  | permissionDenied
  /-- The device is full. -/
  | noSpace
deriving DecidableEq, Repr

/-- The wording of a refusal. -/
def SystemError.message : SystemError → Bytes
  | notFound => utf8 "no such file or directory"
  | isDirectory => utf8 "is a directory"
  | notDirectory => utf8 "not a directory"
  | nameTooLong => utf8 "file name too long"
  | invalidArgument => utf8 "invalid argument"
  | permissionDenied => utf8 "permission denied"
  | noSpace => utf8 "no space left on device"

/-- **A failure**, with the failure that caused it if there is one. -/
inductive Fault where
  /-- No failure was given where one was due. -/
  | unstated
  /-- A line has no binary digit. -/
  | emptyNumeral
  /-- A failure known only by its text. -/
  | other (text : Bytes)
  /-- The run was called off. -/
  | canceled
  /-- The run took longer than it may. -/
  | deadlineExceeded
  /-- A line does not fit into the line buffer. -/
  | lineTooLong
  /-- The file system refused a call on a path. -/
  | system (call path : Bytes) (reason : SystemError)
  /-- No transformation has this name. -/
  | unknownTransform (name : Bytes) (available : List Bytes)
  /-- The text names no policy for lines without digits. -/
  | unknownPolicy (text : Bytes)
  /-- The bound on the length of a line is negative. -/
  | negativeLimit (limit : Int)
  /-- The text names no log level. -/
  | unknownLevel (text : Bytes)
  /-- A document is not well formed. What its reader has to say about the place is not kept. -/
  | malformedDocument
  /-- Values of a document do not fit where they stand. -/
  | unfitValues (problems : List Bytes)
  /-- The metrics of a run could not be written. They are put together in a file of their own, whose
  name is made up for the occasion; the reason is kept, but not what it is worded with. -/
  | metricsNotWritten (reason : SystemError)
  /-- A failure with a note on where it happened. -/
  | noted (note : Bytes) (cause : Fault)
  /-- A line could not be transformed. -/
  | parse (transform : Bytes) (line : Int) (input : Bytes) (cause : Fault)
  /-- A stream could not be opened, read, written or closed. -/
  | io (action path : Bytes) (cause : Fault)
deriving DecidableEq, Repr

namespace Fault

/-- The action of a failed read. -/
def reading : Bytes := utf8 "read"

/-- The action of a failed write. -/
def writing : Bytes := utf8 "write"

/-- The action of a failed close. -/
def closing : Bytes := utf8 "close"

/-- The action of opening an input that cannot be opened. -/
def openingInput : Bytes := utf8 "open input"

/-- The action of opening an output that cannot be opened. -/
def openingOutput : Bytes := utf8 "open output"

/-- How many bytes of a line a message quotes. -/
def quotedLength : Nat := 64

/-- The part of a line that a message quotes: a longer line is cut and ends in three dots. -/
def clip (input : Bytes) : Bytes :=
  if input.length > quotedLength then input.take quotedLength ++ utf8 "..." else input

/-- **The wording of a failure.** That of a document which is not well formed, and that of metrics
which could not be written, end before what differs from one reader or occasion to another. -/
def message : Fault → Bytes
  | unstated => utf8 "<nil>"
  | emptyNumeral => utf8 "no binary digits to parse"
  | other text => text
  | canceled => utf8 "context canceled"
  | deadlineExceeded => utf8 "context deadline exceeded"
  | lineTooLong => utf8 "bufio.Scanner: token too long"
  | system call path reason => call ++ [Bytes.space] ++ path ++ utf8 ": " ++ reason.message
  | unknownTransform name available =>
    utf8 "unknown transformation " ++ quoted name ++ utf8 " (available: "
      ++ Bytes.join (utf8 ", ") available ++ utf8 ")"
  | unknownPolicy text =>
    utf8 "invalid empty-line policy " ++ quoted text ++ utf8 " (want fail, skip or zero)"
  | negativeLimit limit => utf8 "must not be negative, got " ++ Bytes.decimal limit
  | unknownLevel text => utf8 "not a valid logrus Level: " ++ quoted text
  | malformedDocument => utf8 "yaml"
  | unfitValues problems =>
    utf8 "decoding failed due to the following error(s):\n\n"
      ++ Bytes.join [Bytes.lineFeed] problems
  | metricsNotWritten _ => utf8 "failed to write metrics"
  | noted note cause => note ++ utf8 ": " ++ cause.message
  | parse transform line input cause =>
    transform ++ utf8 ": line " ++ Bytes.decimal line ++ utf8 ": " ++ cause.message
      ++ utf8 " (input " ++ quoted (clip input) ++ utf8 ")"
  | io action path cause =>
    if path.isEmpty then action ++ utf8 ": " ++ cause.message
    else action ++ [Bytes.space] ++ path ++ utf8 ": " ++ cause.message

/-- **A failure with its causes**, outermost first. -/
def chain : Fault → List Fault
  | noted note cause => noted note cause :: cause.chain
  | parse transform line input cause => parse transform line input cause :: cause.chain
  | io action path cause => io action path cause :: cause.chain
  | fault => [fault]

/-- Does the chain contain a line without binary digits? -/
def isEmptyNumeral (fault : Fault) : Bool :=
  fault.chain.any (· = emptyNumeral)

/-- Is this very failure, not one of its causes, a line that could not be transformed? -/
def isParse : Fault → Bool
  | parse .. => true
  | _ => false

/-- Is this very failure, not one of its causes, that of a stream? -/
def isIo : Fault → Bool
  | io .. => true
  | _ => false

/-- **The class of a failure**, with what a report of it shows. -/
inductive Kind where
  /-- A line could not be transformed. -/
  | parse (transform : Bytes) (line : Int) (input : Bytes)
  /-- A stream failed. -/
  | io (action path : Bytes)
  /-- The run was called off. -/
  | canceled
  /-- The run took too long. -/
  | deadlineExceeded
  /-- Anything else. -/
  | other
deriving DecidableEq, Repr

/-- The outermost line failure of a chain. -/
def parseKind? (fault : Fault) : Option Kind :=
  fault.chain.findSome? fun
    | parse transform line input _ => some (.parse transform line input)
    | _ => none

/-- The outermost stream failure of a chain. -/
def ioKind? (fault : Fault) : Option Kind :=
  fault.chain.findSome? fun
    | io action path _ => some (.io action path)
    | _ => none

/-- The class of a failure: a line failure anywhere in its chain comes first, then a stream
failure, then a cancellation. -/
def kind (fault : Fault) : Kind :=
  (fault.parseKind? <|> fault.ioKind?).getD <|
    if fault.chain.any (· = canceled) then .canceled
    else if fault.chain.any (· = deadlineExceeded) then .deadlineExceeded
    else .other

/-- Gives the outermost stream failure of a chain its path, if it has none yet: a failed read
belongs to `input`, a failed write to `output`. -/
def locate (input output : Bytes) : Fault → Fault
  | io action path cause =>
    if !path.isEmpty then io action path cause
    else if action = reading then io action input cause
    else if action = writing then io action output cause
    else io action path cause
  | parse transform line text cause => parse transform line text (cause.locate input output)
  | noted note cause => noted note (cause.locate input output)
  | fault => fault

end Fault

end Linewise
