import ProbICE.Lib.Machine
import ProbICE.Text

/-! # The console of the Android application

`OnPrintString` of the native side sends a string and its end on a stream socket. A background task of the activity
reads the stream byte for byte, and the thread of the user interface makes a script of every string and has the
`WebView` evaluate it. -/

namespace ProbICE

/-! ### The script -/

/-- The character stands for itself in a string literal between single quotes: it is neither a quote nor a backslash
    nor the end of a line. -/
def plainChar (c : Char) : Bool :=
  !(c.toNat == 0x27 || c.toNat == 0x5C || c.toNat == 0x0A || c.toNat == 0x0D || c.toNat == 0x2028 || c.toNat == 0x2029)

def callPrefix : JsString := "onPrintString('".toList

def callSuffix : JsString := "');".toList

/-- The argument, if the script is a call of `onPrintString` with one literal in which every character stands for
    itself. -/
def callOf (script : JsString) : Option JsString :=
  if callPrefix <+: script then
    let literal := (script.drop callPrefix.length).takeWhile plainChar
    if script.drop (callPrefix.length + literal.length) = callSuffix then some literal else none
  else none

/-- What the evaluation of a script does. -/
inductive Evaluated where
  | onPrintString (msg : JsString)
  | other (script : JsString)
deriving DecidableEq

/-- A `WebView` with the page of the application in it. -/
structure WebView where
  /-- The characters that a `javascript:` URL may hold without being changed. -/
  keeps : Char → Bool
  loadUrl : JsString → List Evaluated

def javascript : JsString := "javascript:".toList

/-- A `javascript:` URL evaluates its script, and the call of a function with a literal calls it with the characters of
    the literal. -/
structure WebView.Evaluates (w : WebView) : Prop where
  keeps_call : ∀ c ∈ javascript ++ callPrefix ++ callSuffix, w.keeps c = true
  loadUrl_call : ∀ script arg, (∀ c ∈ script, w.keeps c = true) → callOf script = some arg →
    w.loadUrl (javascript ++ script) = [.onPrintString arg]

/-! ### The channel -/

/-- The threads that print. -/
inductive Printer where
  | signaling
  | worker
deriving DecidableEq

/-- What `onChannelReadPacket` prints for a packet that its array has room for. It ends at the first NUL. -/
def onChannelReadPacket (data : List UInt8) : CString := cstr "Get packet:" ++ data.takeWhile (· ≠ 0)

structure Console where
  /-- The thread is in `OnPrintString` and has sent the string but not its end. -/
  sending : Printer → Bool
  /-- What has been printed, in the order in which the strings were sent. -/
  printed : List (Printer × CString)
  /-- The bytes that have been sent and not been read. -/
  socket : List UInt8
  /-- `receiveData` in front of `recvOffset`. -/
  receiveData : List UInt8
  /-- The background task has thrown an exception that it does not catch. -/
  crashed : Bool
  /-- The strings that have been published and not come to `onProgressUpdate`, oldest first. -/
  progress : List JsString
  evaluated : List Evaluated

namespace Console

def new : Console where
  sending _ := false
  printed := []
  socket := []
  receiveData := []
  crashed := false
  progress := []
  evaluated := []

/-- The length of `receiveData`. -/
def bufferSize : Nat := 1024 * 16

/-- The first `send` of `OnPrintString`. -/
def sendText (c : Console) (thread : Printer) (msg : CString) : Console :=
  { c with
    sending := fun t => t = thread || c.sending t
    printed := c.printed ++ [(thread, msg)]
    socket := c.socket ++ msg }

/-- The second `send` of `OnPrintString`. -/
def sendEnd (c : Console) (thread : Printer) : Console :=
  { c with sending := fun t => t ≠ thread && c.sending t, socket := c.socket ++ [0] }

/-- A turn of the loop of `_doInBackground` that has read `b`. `new String` decodes UTF-8. -/
def readByte (c : Console) (b : UInt8) : Console :=
  if b = 0 then { c with receiveData := [], progress := c.progress ++ [Utf8.lossy c.receiveData] }
  else { c with receiveData := c.receiveData ++ [b] }

def onProgressUpdate (w : WebView) (c : Console) (xmlMessage : JsString) : Console :=
  { c with evaluated := c.evaluated ++ w.loadUrl (javascript ++ (callPrefix ++ xmlMessage ++ callSuffix)) }

inductive Event where
  | sendText (thread : Printer) (msg : CString)
  | sendEnd (thread : Printer)
  /-- The background task goes on with its loop. -/
  | read
  /-- The thread of the user interface handles the oldest string. -/
  | progress

/-- The next event, if it can happen. -/
def step (w : WebView) (c : Console) (e : Event) : Option Console :=
  if c.crashed then none
  else
    match e with
    | .sendText thread msg => if c.sending thread then none else some (c.sendText thread msg)
    | .sendEnd thread => if c.sending thread then some (c.sendEnd thread) else none
    | .read =>
      -- `read` throws an `ArrayIndexOutOfBoundsException` when the offset is the length of the array
      if bufferSize ≤ c.receiveData.length then some { c with crashed := true }
      else
        match c.socket with
        | [] => none
        | b :: socket => some ({ c with socket }.readByte b)
    | .progress =>
      match c.progress with
      | [] => none
      | xmlMessage :: progress => some ({ c with progress }.onProgressUpdate w xmlMessage)

/-- The state after a list of events, if they can all happen. -/
def run (w : WebView) (c : Console) (es : List Event) : Option Console := Machine.run (step w) c es

end Console

end ProbICE
