import Conductor.Database.Problem
import Conductor.Json.Parser
import Conductor.Json.Plain
import Conductor.Schema.Checked
import Conductor.Yaml.Failure

/-! Everything that can go wrong, by cause. -/

namespace Conductor

/-- The kinds of trouble that come from outside: from the network, from an agent, from a store. -/
inductive Trouble where
  | timeout
  | connectTimeout
  | readTimeout
  | writeTimeout
  | poolTimeout
  | transport
  | connect
  | read
  | write
  | close
  | proxy
  | unsupportedProtocol
  | remoteProtocol
  | localProtocol
  | decoding
  | redirects
  | http
  | url
  | value
  | runtime
  | key
  | other (name : String)
deriving Repr, DecidableEq

namespace Trouble

/-- The kinds that have a fixed name. -/
def named : List (String × Trouble) := [
  ("TimeoutException", .timeout), ("ConnectTimeout", .connectTimeout), ("ReadTimeout", .readTimeout),
  ("WriteTimeout", .writeTimeout), ("PoolTimeout", .poolTimeout), ("TransportError", .transport),
  ("ConnectError", .connect), ("ReadError", .read), ("WriteError", .write), ("CloseError", .close),
  ("ProxyError", .proxy), ("UnsupportedProtocol", .unsupportedProtocol),
  ("RemoteProtocolError", .remoteProtocol), ("LocalProtocolError", .localProtocol),
  ("DecodingError", .decoding), ("TooManyRedirects", .redirects), ("HTTPError", .http),
  ("InvalidURL", .url), ("ValueError", .value), ("RuntimeError", .runtime), ("KeyError", .key)]

def name : Trouble → String
  | .other name => name
  | t => ((named.find? (·.2 = t)).map (·.1)).getD ""

def ofName (name : String) : Trouble := (Table.get? named name).getD (.other name)

def isTimeout : Trouble → Bool
  | .timeout | .connectTimeout | .readTimeout | .writeTimeout | .poolTimeout => true
  | _ => false

/-- Trouble on the way to the other side and back, a timeout included. -/
def isTransport : Trouble → Bool
  | .transport | .connect | .read | .write | .close | .proxy | .unsupportedProtocol
  | .remoteProtocol | .localProtocol => true
  | t => t.isTimeout

/-- Trouble that a request reports as its own. -/
def isHttp : Trouble → Bool
  | .decoding | .redirects | .http => true
  | t => t.isTransport

end Trouble

inductive Fault where
  /-- A numeral has more digits than can be read. -/
  | longNumeral (digits : Nat)
  | integerTooLarge
  | quotientTooLarge
  | powerTooLarge
  | powerOfZero
  /-- A text that is no JSON. -/
  | unreadable (text : List Char) (failure : Json.Failure)
  | workflowNotFound (id : String)
  | workflowDisabled (id : String)
  | runNotFound (id : String)
  | dispatch (message : String) (retryable : Bool)
  | trouble (kind : Trouble) (message : String)
  | invalid (issues : List Issue)
  /-- A workflow definition has issues. -/
  | invalidWorkflow (issues : List Issue)
  /-- A file holds no JSON or YAML; for JSON the reason is told. -/
  | unreadableWorkflow (path : String) (reason : Option String)
  /-- A file holds something else than a mapping. -/
  | noWorkflow (path : String)
  | notYaml (failure : Yaml.Failure)
  /-- A value that contains itself cannot be written down. -/
  | circular
  /-- Bytes that spell no text cannot be written down. -/
  | notUnicode (bytes : List UInt8)
  /-- A value of another kind is needed. -/
  | wrongKind
  | noSuchFile (path : String)
  | isFolder (path : String)
  /-- A path goes on behind a file. -/
  | notFolder (path : String)
  /-- A path, or a name in it, is longer than can be looked up. -/
  | longPath (path : String)
  | nullCharacter
  /-- A value is asked for what it does not have. -/
  | noAttribute
  /-- A row is to get values in columns that it does not have. -/
  | noColumn (names : List String)
  /-- A row cannot hold an integer of more than 64 bits. -/
  | wideInteger
  /-- A column must hold something, and something that it can hold. -/
  | notStorable (column : String)
  /-- Two rows cannot be told apart. -/
  | repeatedKey (column : String)
  | unsupportedDatabase (url : String)
  | noDatabase (problem : Database.Problem)
  | noGatewayUrl
  | unknownLevel (name : String)
deriving Repr, DecidableEq

namespace Fault

/-- The number of issues in words. -/
def countOf (issues : List Issue) : String :=
  let noun := if issues.length = 1 then "error" else "errors"
  s!"{issues.length} validation {noun}"

def quoted (s : String) : String := String.ofList (Json.plainQuote s.toList)

/-- The number of bytes at the start that spell a text. -/
def readable (bytes : List UInt8) : Nat :=
  ((List.range (bytes.length + 1)).reverse.find? fun n =>
    (String.fromUTF8? ⟨(bytes.take n).toArray⟩).isSome).getD 0

def hexByte (b : UInt8) : String := String.ofList (Json.plainHex 2 b.toNat)

def comma : String := ", "

/-- The text of a fault. A missing key shows the key in quotes. -/
def message : Fault → String
  | .longNumeral digits => Decimal.tooLong digits
  | .integerTooLarge => "int too large to convert to float"
  | .quotientTooLarge => "integer division result too large for a float"
  | .powerTooLarge => "(34, 'Numerical result out of range')"
  | .powerOfZero => "0.0 cannot be raised to a negative power"
  | .unreadable text failure => failure.message text
  | .workflowNotFound id => s!"Workflow not found: {id}"
  | .workflowDisabled id => s!"Workflow is disabled: {id}"
  | .runNotFound id => s!"Run not found: {id}"
  | .dispatch message _ => message
  | .trouble .key message => quoted message
  | .trouble _ message => message
  | .invalid issues => countOf issues
  | .invalidWorkflow issues => s!"{countOf issues} for Workflow"
  | .unreadableWorkflow path reason =>
    match reason with
    | some reason => s!"{path} could not be parsed: {reason}"
    | none => s!"{path} could not be parsed"
  | .noWorkflow path => s!"{path} does not contain a workflow mapping"
  | .notYaml failure => failure.message
  | .circular => "Circular reference detected (id repeated)"
  | .notUnicode bytes =>
    let place := readable bytes
    let byte := hexByte (bytes[place]?.getD 0)
    s!"'utf-8' codec can't decode byte 0x{byte} in position {place}: invalid utf-8"
  | .wrongKind => "A value of another kind is needed"
  | .noSuchFile path => s!"[Errno 2] No such file or directory: {quoted path}"
  | .isFolder path => s!"[Errno 21] Is a directory: {quoted path}"
  | .notFolder path => s!"[Errno 20] Not a directory: {quoted path}"
  | .longPath path => s!"[Errno 36] File name too long: {quoted path}"
  | .nullCharacter => "embedded null byte"
  | .noAttribute => "There is nothing of that name"
  | .noColumn names => s!"Unconsumed column names: {String.intercalate comma names}"
  | .wideInteger => "Python int too large to convert to SQLite INTEGER"
  | .notStorable column => s!"No such value can be stored in {column}"
  | .repeatedKey column => s!"The value of {column} is there already"
  | .unsupportedDatabase url => s!"Unsupported database backend: {url}"
  | .noDatabase problem => problem.message
  | .unknownLevel name => s!"Unknown level: {quoted name}"
  | .noGatewayUrl => "dispatch.gateway_url is required for the http backend"

/-- The faults that the command line reports in words of its own. -/
def isExpected : Fault → Bool
  | .workflowNotFound _ | .workflowDisabled _ | .runNotFound _ | .dispatch _ _
  | .invalidWorkflow _ | .unreadableWorkflow _ _ | .noWorkflow _ => true
  | _ => false

/-- The text of a fault; for trouble without a text, the name of its kind. -/
def describe : Fault → String
  | .trouble .key message => quoted message
  | .trouble kind "" => kind.name
  | f => f.message

end Fault

/-- Issues are a fault where a value is needed at once. -/
def Checked.orFault {α : Type} : Checked α → Except Fault α
  | .ok a => .ok a
  | .bad issues => .error (.invalid issues)

end Conductor
