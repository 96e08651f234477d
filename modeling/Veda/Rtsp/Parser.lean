import Veda.Cpp

/-! The request parser. -/
namespace Veda.Rtsp

open Cpp

inductive Method
  | options | describe | setup | play | pause | teardown | getParameter | unknown
  deriving DecidableEq, Repr

/-- Header lines by name. In a `Request` they stand in the order in which a loop over the
hash map visits them. -/
abbrev Headers := List (Bytes × Bytes)

structure Request where
  method : Method := .unknown
  uri : Bytes := []
  cseq : Int := 0
  headers : Headers := []
  deriving DecidableEq

/-- Iteration order of `std::unordered_map`: some permutation of the entries, which may
depend on the whole request. -/
structure HashOrder where
  order : Bytes → Headers → Headers
  perm : ∀ raw m, (order raw m).Perm m

instance : Inhabited HashOrder := ⟨⟨fun _ m => m, fun _ m => .refl m⟩⟩

def trim (sv : Bytes) : Bytes :=
  (((sv.dropWhile isspace).reverse).dropWhile isspace).reverse

def iequals (a b : Bytes) : Bool :=
  a.length == b.length && (a.zip b).all fun p => tolower p.1 == tolower p.2

def stringToMethod (s : Bytes) : Method :=
  if iequals s (ascii "OPTIONS") then .options
  else if iequals s (ascii "DESCRIBE") then .describe
  else if iequals s (ascii "SETUP") then .setup
  else if iequals s (ascii "PLAY") then .play
  else if iequals s (ascii "PAUSE") then .pause
  else if iequals s (ascii "TEARDOWN") then .teardown
  else if iequals s (ascii "GET_PARAMETER") then .getParameter
  else .unknown

/-- The next line and what follows its CRLF; all of `data` where there is none. -/
def nextLine (data : Bytes) : Bytes × Bytes :=
  match find crlf data with
  | none => (data, [])
  | some pos => (data.take pos, data.drop (pos + 2))

/-- `METHOD SP URI SP RTSP/...`: method and URI of a well-formed request line. -/
def parseRequestLine (line : Bytes) : Option (Method × Bytes) :=
  if line = [] then none
  else match find [32] line with
    | none => none
    | some space1 =>
      let rest := line.drop (space1 + 1)
      match find [32] rest with
      | none => none
      | some space2 =>
        if (rest.drop (space2 + 1)).take 5 = ascii "RTSP/" then
          some (stringToMethod (line.take space1), rest.take space2)
        else none

/-- `headers[key] = value`. -/
def assign (key value : Bytes) : Headers → Headers
  | [] => [(key, value)]
  | (k, v) :: m => if k = key then (k, value) :: m else (k, v) :: assign key value m

/-- One header line: `none` is a line without a colon, which is skipped. -/
def parseHeaderLine (line : Bytes) : Option (Bytes × Bytes) :=
  (find [58] line).map fun colon => (trim (line.take colon), trim (line.drop (colon + 1)))

/-- The header loop. Every round consumes a byte, so `fuel = raw.length` is enough. -/
def parseHeaderLoop : Nat → Bytes → Headers → Headers
  | 0, _, headers => headers
  | fuel + 1, raw, headers =>
    if raw = [] then headers
    else
      let (line, raw) := nextLine raw
      if line = [] then headers
      else match parseHeaderLine line with
        | none => parseHeaderLoop fuel raw headers
        | some (key, value) => parseHeaderLoop fuel raw (assign key value headers)

def parseHeaders (raw : Bytes) : Headers := parseHeaderLoop raw.length raw []

def cseqName : Bytes := ascii "CSeq"

/-- The header value that is converted to the sequence number: exactly `CSeq` first, then
the first name the loop finds that differs in letter case only. -/
def cseqValue (headers : Headers) : Option Bytes :=
  match headers.lookup cseqName with
  | some v => some v
  | none => (headers.find? fun e => iequals e.1 cseqName).map Prod.snd

def parseRequest (ord : HashOrder) (raw : Bytes) : Except StdException (Option Request) :=
  if raw = [] then .ok none
  else
    let (line, rest) := nextLine raw
    match parseRequestLine line with
    | none => .ok none
    | some (method, uri) =>
      let headers := ord.order raw (parseHeaders rest)
      match cseqValue headers with
      | none => .ok (some { method, uri, headers })
      | some v =>
        match stoi v with
        | .error e => .error e
        | .ok cseq => .ok (some { method, uri, cseq, headers })

/-- Header lookup, ignoring letter case: the first match of the loop over the map. -/
def header (req : Request) (name : Bytes) : Option Bytes :=
  (req.headers.find? fun e => iequals e.1 name).map Prod.snd

end Veda.Rtsp
