import AttestationTrust.World
/-!
# Downloads

A location is requested over the trust store of the system first and over the bundled one second.  The second
request is made only when the first failed because the server's certificate did not verify
(`Trouble.isUnverified`); every other outcome settles the download.

What comes of a request is given (`Outcome`): an answer with its whole body, a refusal, or trouble of one of the
kinds below.  A body that breaks off while it is read is trouble of such a kind where the connection fails; one that
breaks the rules of the protocol, with fewer octets than it announces, cannot be expressed.  No clause of the
download is for that, so it would leave the download as the failure that it is.
-/
namespace AttestationTrust
namespace Download

def topic : String := "mds_trust.download"

/-- How the library names itself to a server. -/
def userAgent : String := "mds-trust/1.0"

/-- Where the certificates that a server is verified against come from. -/
inductive Store where
  | system
  | bundled
  deriving DecidableEq, Repr

def Store.name : Store → String
  | .system => "system"
  | .bundled => "certifi"

/-- Why a store cannot be opened. -/
inductive StoreFault where
  | tls
  | file
  deriving DecidableEq, Repr

inductive TroubleKind where
  | unverified
  | tls
  | timeout
  | file
  | value
  deriving DecidableEq, Repr

/-- What a request may end in instead of an answer: trouble of a kind with its details, or a failure to open
the location for a reason that is a text or trouble in turn. -/
inductive Trouble where
  | plain (kind : TroubleKind) (details : List Value) (reason : Option String)
  | openText (reason : String)
  | openTrouble (reason : Trouble)
  deriving Inhabited

inductive Outcome where
  /-- The status, the code in its place if there is none, and the body. -/
  | answer (status code : Option Int) (body : Bytes)
  | httpError (status : Int) (headers : Option (List (String × String)))
  | trouble (t : Trouble)

namespace Trouble

/-- Details of trouble with a file, read: its number and description, the names of up to two files, and the
details that stay listed. -/
structure Reading where
  numbered : Option (Value × Value)
  name : Option Value
  other : Option Value
  listed : List Value

/-- The numbers of operations that would have to wait: behind them a number in the place of a file's name is a
count and names nothing. -/
def waiting : List Int := [11, 114, 115]

def isCount (kind : TroubleKind) (number name : Value) : Bool :=
  match kind, number, name with
  | .file, .int n, .int _ => waiting.contains n
  | .file, .int n, .bool _ => waiting.contains n
  | _, _, _ => false

/-- Two to five details are a number, a description, the name of a file, one that does not count and the name of
another file.  With a file's name only the first two stay listed. -/
def Reading.ofDetails (kind : TroubleKind) (details : List Value) : Reading :=
  match details with
  | n :: d :: more =>
    if 3 < more.length then ⟨none, none, none, details⟩
    else
      let name := (more[0]?.bind Value.present?).filter fun v => !isCount kind n v
      if name.isSome then ⟨some (n, d), name, more[2]?.bind Value.present?, [n, d]⟩
      else ⟨some (n, d), none, none, details⟩
  | _ => ⟨none, none, none, details⟩

/-- Details in general: nothing, the one there is, or all of them. -/
def listText : List Value → String
  | [] => ""
  | [v] => v.asText
  | vs => (Value.tuple vs).display

def fileText (r : Reading) : String :=
  match r.numbered with
  | none => listText r.listed
  | some (n, d) =>
    let start := "[Errno " ++ n.asText ++ "] " ++ d.asText
    match r.name, r.other with
    | some name, some other => start ++ ": " ++ name.display ++ " -> " ++ other.display
    | some name, none => start ++ ": " ++ name.display
    | none, _ => start

/-- The description, if it is a text. -/
def tlsText (r : Reading) : String :=
  match r.numbered with
  | some (_, .text s) => s
  | _ => (Value.tuple r.listed).display

def plainText (kind : TroubleKind) (details : List Value) : String :=
  let r := Reading.ofDetails kind details
  match kind with
  | .unverified => tlsText r
  | .tls => tlsText r
  | .timeout => fileText r
  | .file => fileText r
  | .value => listText details

def text : Trouble → String
  | .plain kind details _ => plainText kind details
  | .openText reason => "<urlopen error " ++ reason ++ ">"
  | .openTrouble t => "<urlopen error " ++ t.text ++ ">"

def verifyWords : List Char := "certificate verify failed".toList

def saysUnverified (s : String) : Bool := Text.occursIn verifyWords (s.toList.map Text.lowerChar)

/-- The words of an error of the secure layer: its text, its reason and its details. -/
def allWords (details : List Value) (reason : Option String) (text : String) : String :=
  " ".intercalate
    (([text] ++ reason.toList ++ (details.filter Value.truthy).map Value.asText).filter fun s => s != "")

/-- Whether the trouble is that the server's certificate did not verify. -/
def isUnverified : Trouble → Bool
  | .plain .unverified _ _ => true
  | .plain .tls details reason =>
    saysUnverified (allWords (Reading.ofDetails .tls details).listed reason (plainText .tls details))
  | t => saysUnverified t.text

end Trouble

/-- What a settled request comes to, or that the next store is to be tried. -/
inductive Step where
  | done (bs : Bytes)
  | failed (f : Failure)
  | retry (reason : String)

/-- The value of a header, whatever the case of its name, without blanks around it. -/
def header? (name : String) (headers : List (String × String)) : Option String :=
  match headers.find? fun h => Text.lower h.1 == Text.lower name with
  | some (_, v) => if Text.trim v = "" then none else some (Text.trim v)
  | none => none

def openStep (url : String) (isUnverified : Bool) (retryText reason : String) : Step :=
  if isUnverified then .retry retryText else .failed (.download (.unreachable url (some reason)))

def step (url : String) : Outcome → Step
  | .answer status code body =>
    let status := match status with
      | some 0 => code
      | some n => some n
      | none => code
    if status = some 200 then .done body else .failed (.download (.badStatus url status))
  | .httpError status headers =>
    .failed (.download (.httpError url status (header? "Retry-After" (headers.getD []))))
  | .trouble (.openText reason) =>
    let whole := (Trouble.openText reason).text
    openStep url (Trouble.saysUnverified whole) whole reason
  | .trouble (.openTrouble t) =>
    if t.isUnverified then .retry t.text
    else
      let whole := (Trouble.openTrouble t).text
      openStep url (Trouble.saysUnverified whole) whole t.text
  | .trouble (.plain .value details _) => .failed (.value (.reported (Trouble.plainText .value details)))
  | .trouble t => .failed (.download (.unreachable url (some t.text)))

/-- The target of a request: blanks, angle brackets and a mark around the location do not belong to it. -/
def unwrap (url : String) : List Char :=
  let cs := Text.trimList url.toList
  let cs := match cs with
    | '<' :: rest =>
      if rest.getLast? = some '>' then Text.trimList rest.dropLast else cs
    | _ => cs
  match cs with
  | 'U' :: 'R' :: 'L' :: ':' :: rest => Text.trimList rest
  | _ => cs

/-- An empty fragment is dropped. -/
def dropEmptyFragment (cs : List Char) : List Char :=
  if cs.getLast? = some '#' then cs.dropLast else cs

/-- What stands before the last number sign. -/
def withoutFragment (cs : List Char) : List Char :=
  match cs.reverse.dropWhile (· != '#') with
  | [] => cs
  | _ :: before => before.reverse

/-- Whether a colon follows at least one character, before any slash. -/
def hasScheme (cs : List Char) : Bool :=
  let word := cs.takeWhile fun c => c != ':' && c != '/'
  !word.isEmpty && (cs.drop word.length).head? == some ':'

/-- The target of a request, if it has a scheme. -/
def target (url : String) : Except Failure String :=
  let cs := unwrap url
  let shown := String.ofList (dropEmptyFragment cs)
  if hasScheme (withoutFragment cs) then .ok shown else .error (.value (.noScheme shown))

/-- The stores that can be opened, and the records about the others.  The system's own store may fail only for
a reason of the secure layer. -/
def openStores (system bundled : Option StoreFault) : Except Failure (List Store) × List LogRecord :=
  let bundledPart : List Store × List LogRecord :=
    match bundled with
    | none => ([.bundled], [])
    | some _ => ([], [⟨.debug, topic, "certifi TLS trust store unavailable: " ++ Failure.unworded⟩])
  match system with
  | none => (.ok (.system :: bundledPart.1), bundledPart.2)
  | some .tls =>
    (.ok bundledPart.1,
      ⟨.debug, topic, "System TLS trust store unavailable: " ++ Failure.unworded⟩ :: bundledPart.2)
  | some .file => (.error .unreadable, [])

/-- A request for a target, with a bound on its time, over a store. -/
structure Request where
  target : String
  agent : String
  timeout : Timeout
  store : Store
  deriving DecidableEq, Repr

/-- One request for each store until one settles; the requests that were made. -/
def runAll (url : String) (ask : Store → Request) (reason : Option String) :
    List Store → List Outcome → Except Failure Bytes × List Request
  | [], _ =>
    (.error (.download (match reason with
      | some r => .unverifiedServer url r
      | none => .unreachable url none)), [])
  | _ :: _, [] => (.error (.download (.unreachable url none)), [])
  | store :: stores, outcome :: outcomes =>
    match step url outcome with
    | .done bs => (.ok bs, [ask store])
    | .failed f => (.error f, [ask store])
    | .retry r =>
      let (result, made) := runAll url ask (some r) stores (if outcomes = [] then [outcome] else outcomes)
      (result, ask store :: made)

/-- The requests with a bound on their time; a bound that is no floating point number ends the first. -/
def run (url target : String) (timeout : Timeout) (stores : List Store) (outcomes : List Outcome) :
    Except Failure Bytes × List Request :=
  match timeout.seconds, stores with
  | .error f, _ :: _ => (.error f, [])
  | _, _ => runAll url (fun store => ⟨target, userAgent, timeout, store⟩) none stores outcomes

structure Report where
  result : Except Failure Bytes
  /-- The requests that were made. -/
  requests : List Request
  log : List LogRecord

/-- What the requests are for; where none was made, nothing. -/
def Report.target (r : Report) : String := (r.requests.head?.map Request.target).getD ""

/-- The stores over which the requests were made. -/
def Report.used (r : Report) : List Store := r.requests.map Request.store

/-- The body of a location, or why it cannot be had. -/
def fetch (url : String) (timeout : Timeout) (system bundled : Option StoreFault) (outcomes : List Outcome) : Report :=
  match target url with
  | .error f => ⟨.error f, [], []⟩
  | .ok target =>
    match openStores system bundled with
    | (.error f, log) => ⟨.error f, [], log⟩
    | (.ok stores, log) =>
      let (result, requests) := run url target timeout stores outcomes
      ⟨result, requests, log⟩

end Download
end AttestationTrust
