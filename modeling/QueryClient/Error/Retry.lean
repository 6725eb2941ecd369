/-
  Which errors are transient.

  The links of a chain are looked at from the outside.  `Link.verdict?` says what a link
  decides, if it decides anything; the first link that does decides for the chain
  (`isTransient`).
-/
import QueryClient.Error.Basic
import QueryClient.Text.Search

namespace QueryClient

open QueryClient.Text

/-- The codes of failures to reach or to keep a connection. -/
def connectionCodes : List String :=
  ["ECONNRESET", "ETIMEDOUT", "ECONNREFUSED", "ENOTFOUND", "EPIPE", "EAI_AGAIN"]

/-- What a name server says that may answer later. -/
def nameServerText : String := "Temporary failure in name resolution"

/-- Whether a text names a connection code or says what such a name server says. -/
def mentionsConnectionCode (text : String) : Bool :=
  connectionCodes.any (occursIn · text) || occursIn nameServerText text

/-- A status of class 08, connection exceptions, or 40, transactions rolled back. -/
def isTransientStatus (status : String) : Bool :=
  "08".toList.isPrefixOf status.toList || "40".toList.isPrefixOf status.toList

/-- The connection code of an error of the operating system. -/
def SystemError.connectionCode? (e : SystemError) : Option String :=
  match e.kind with
  | .connectionReset | .connectionAborted => some "ECONNRESET"
  | .timedOut => some "ETIMEDOUT"
  | .connectionRefused => some "ECONNREFUSED"
  | .notFound => some "ENOTFOUND"
  | .brokenPipe => some "EPIPE"
  | _ => if occursIn nameServerText e.message then some "EAI_AGAIN" else none

/-- What the text of a link decides. -/
def Link.textVerdict? (l : Link) : Option Bool :=
  if mentionsConnectionCode l.message then some true else none

/-- What a link decides: a status decides by its class, a failure that is neither of a
statement nor of a connection is permanent, and a lost connection is transient. -/
def Link.verdict? (l : Link) : Option Bool :=
  match l with
  | .failure (.query _ (some status)) => some (isTransientStatus status)
  | .failure (.query _ none) | .failure (.connection _) => l.textVerdict?
  | .failure _ => some false
  | .driver e =>
    match e.report? with
    | some r => some (isTransientStatus r.status)
    | none => if e.isClosed then some true else l.textVerdict?
  | .server r => some (isTransientStatus r.status)
  | .system e => if e.connectionCode?.isSome then some true else l.textVerdict?
  | .other _ => l.textVerdict?

/-- Whether a chain is transient: the first link that decides says so. -/
def isTransient (chain : List Link) : Bool :=
  (chain.findSome? Link.verdict?).getD false

/-- Whether a call that failed with this error may be tried again. -/
def Error.isRetriable (e : Error) : Bool :=
  match e.failure with
  | .query _ _ | .connection _ => isTransient e.chain
  | _ => false

end QueryClient
