import Lockstep.Feed
import Lockstep.Snapshot.Reader

/-!
# The feed over HTTP

A poll is a GET request. Redirects are followed, any other status than success
is an error, and the body of a success is read as a snapshot. What a redirect
asks for is up to the client, which resolves the location that it is given.
-/

namespace Lockstep

/-- A response: its status, where it points to, its body, and whether all of the
body arrives. -/
structure Response where
  status : Nat
  location : Option String
  body : List UInt8
  complete : Bool
deriving DecidableEq, Repr

/-- Whether a response is a success. -/
def Response.isSuccess (r : Response) : Bool := 200 ≤ r.status && r.status < 300

/-- The location that a response sends the request on to. -/
def Response.redirect? (r : Response) : Option String :=
  if [301,302,303,307,308].contains r.status then r.location else none

/-- How a client resolves a location, seen from the target that was asked for: to the
next target, or not at all, where the location leads nowhere. -/
abbrev Resolution := String → String → Option String

/-- What is asked for after a response, if it sends the request on to anything. -/
def Response.onward? (resolve : Resolution) (asked : String) (r : Response) : Option String :=
  r.redirect?.bind (resolve asked)

/-- The bytes that are read as the body; some statuses have none. -/
def Response.payload (r : Response) : List UInt8 :=
  if r.status = 204 ∨ r.status = 304 then [] else r.body

/-- What becomes of one request: nobody reads it, it is read but no response
comes, or there is a response. -/
inductive Transfer where
  | unread
  | unanswered
  | answered (r : Response)
deriving DecidableEq, Repr

/-- The feed at an address. -/
structure HttpFeed where
  url : String

namespace HttpFeed

/-- What follows the scheme and the host of an address, if it has them. -/
def afterHost? (url : List Char) : Option (List Char) :=
  let scheme := "http://".toList
  if scheme.isPrefixOf url then
    some ((url.drop scheme.length).dropWhile fun c => c != '/' && c != '?')
  else none

/-- A target that starts with a slash. -/
def rooted : List Char → List Char
  | '/' :: s => '/' :: s
  | s => '/' :: s

/-- What a request for an address asks its host for. -/
def requestTarget (url : String) : String :=
  String.ofList (rooted ((afterHost? url.toList).getD url.toList))

/-- A location as servers write it: an address, a path, a query, or a name beside the
last in the path. -/
def plain : Resolution := fun asked location =>
  let path := asked.toList.takeWhile (· != '?')
  some <| String.ofList <|
    match afterHost? location.toList with
    | some rest => rooted rest
    | none =>
      match location.toList with
      | '/' :: s => '/' :: s
      | '?' :: s => path ++ '?' :: s
      | s => (path.reverse.dropWhile (· != '/')).reverse ++ s

/-- The first line of a request. -/
def requestLine (asked : String) : String := "GET " ++ asked ++ " HTTP/1.1"

/-- How many redirects are followed. -/
def redirectLimit : Nat := 10

/-- What is said of a request that brought no response. -/
def failure (url : String) : FeedError :=
  .request ("error sending request for url (" ++ url ++ ")")

/-- The transfers to come, the last of which comes again and again, and the
requests that were read. -/
structure Line where
  transfers : List Transfer
  asked : List String

/-- The transfers to come. -/
def Line.ofTransfers (transfers : List Transfer) : Line := ⟨transfers,[]⟩

/-- The next transfer; where none is foreseen nobody listens. -/
def Line.next (line : Line) : Transfer × List Transfer :=
  match line.transfers with
  | [] => (.unread,[])
  | [transfer] => (transfer,[transfer])
  | transfer :: rest => (transfer,rest)

/-- Asks once. -/
def ask (asked : String) (line : Line) : Option Response × Line :=
  let (transfer,rest) := line.next
  match transfer with
  | .unread => (none,⟨rest,line.asked⟩)
  | .unanswered => (none,⟨rest,line.asked ++ [requestLine asked]⟩)
  | .answered r => (some r,⟨rest,line.asked ++ [requestLine asked]⟩)

/-- Asks until a response sends no further. -/
def fetch (resolve : Resolution) (url : String) : Nat → String → Line → Except FeedError Response × Line
  | hops,asked,line =>
    match ask asked line with
    | (none,line) => (.error (failure url),line)
    | (some response,line) =>
      match response.onward? resolve asked,hops with
      | none,_ => (.ok response,line)
      | some _,0 => (.error (failure url),line)
      | some target,hops + 1 => fetch resolve url hops target line

/-- The snapshot in a final response. -/
def read (url : String) (r : Response) : Except FeedError Snapshot :=
  if !r.isSuccess then .error (.status r.status)
  else if !r.complete then .error (failure url)
  else match Snapshot.ofPayload r.payload with
    | .ok snapshot => .ok snapshot
    | .error f => .error (.malformed f.message)

/-- The record of a snapshot that was fetched. -/
def fetched (s : Snapshot) : Log.Record :=
  ⟨.debug,"scout_sync::snapshot","Fetched facility snapshot",
    [("run",.number s.run.toNat),("beam_mode",.text s.beamMode),
      ("daq_state",.text s.daqState)]⟩

/-- The reading that a final response gives. Of the time that requests take nothing is
counted. -/
def reading (url : String) (result : Except FeedError Response) : Reading :=
  match result with
  | .error e => { result := .error e }
  | .ok response =>
    match read url response with
    | .ok snapshot => { result := .ok snapshot, notes := [fetched snapshot] }
    | .error e => { result := .error e }

/-- The feed over a line, through a client that resolves locations in its way. -/
def feed (f : HttpFeed) (resolve : Resolution := plain) : Feed Line where
  poll line :=
    let (result,line) := fetch resolve f.url redirectLimit (requestTarget f.url) line
    (reading f.url result,line)

end HttpFeed

end Lockstep
