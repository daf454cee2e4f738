import Dote.Bytes
import Mathlib.Tactic

/-! The command line parser. It is reused for several argument vectors: each
call of `parseConfig` adds to what the calls before it have configured, and
validity once lost stays lost. -/
namespace Dote.Config

inductive Family where
  | unspec
  | inet
  | inet6
deriving DecidableEq, Repr

/-- The parts of a `sockaddr_storage` that the program writes. -/
structure SockAddr where
  family : Family
  port : UInt16
  addr : Bytes
deriving DecidableEq, Repr

/-- All zero: `AF_UNSPEC` is 0. -/
def SockAddr.unspec : SockAddr := ⟨.unspec, 0, []⟩

structure Forwarder where
  remote : SockAddr
  disablePki : Bool
  host : Bytes
  pin : Bytes
deriving DecidableEq, Repr

def Forwarder.empty : Forwarder := ⟨.unspec, false, [], []⟩

/-- What `getopt_long` makes of an argument vector: the options in the order in
which it delivers them, and `optind` once it has delivered them all. -/
structure Getopt where
  options : List (Char × Bytes)
  optind : Nat
deriving DecidableEq

/-- The library functions the parser calls. `bioRead input n` is what `BIO_read`
delivers when it asks the Base64 filter over `input` for at most `n` bytes. -/
structure Libc where
  getopt_long : List Bytes → Getopt
  inet_pton : Family → Bytes → Option Bytes
  bioRead : Bytes → Nat → Bytes

/-- `openssl::Base64::decode`. -/
def decode (libc : Libc) (input : Bytes) : Bytes :=
  libc.bioRead input (input.length / 4 * 3)

def isSpace (c : UInt8) : Bool := c == 32 || (9 ≤ c && c ≤ 13)
def isDigit (c : UInt8) : Bool := 48 ≤ c && c ≤ 57

def digitsValue (digits : Bytes) : Nat :=
  digits.foldl (fun value c => value * 10 + (c.toNat - 48)) 0

/-- `strtol` in base 10: the value, and the rest that `end` points at. -/
def strtol (s : Bytes) : Int × Bytes :=
  let body := s.dropWhile isSpace
  let (negative, unsigned) :=
    match body with
    | 45 :: rest => (true, rest) -- '-'
    | 43 :: rest => (false, rest) -- '+'
    | _ => (false, body)
  let digits := unsigned.takeWhile isDigit
  if digits = [] then (0, s)
  else
    let value : Int := digitsValue digits
    (if negative then max (-value) (-2 ^ 63) else min value (2 ^ 63 - 1),
      unsigned.dropWhile isDigit)

/-- `strchr`: what comes before the first `c`, and what comes after it. -/
def strchr (s : Bytes) (c : UInt8) : Option (Bytes × Bytes) :=
  if c ∈ s then some (s.takeWhile (· != c), (s.dropWhile (· != c)).tail) else none

/-- The part of `parseServer` behind the address: the port and the address are
written to `output`, whose family is set already. -/
def parsePort (libc : Libc) (ip server : Bytes) (defaultPort : UInt16) (output : SockAddr) :
    Bool × SockAddr :=
  let port : Option UInt16 :=
    match server with
    | 58 :: number => -- ':'
      let (longPort, rest) := strtol number
      if rest ≠ [] ∨ longPort < 1 ∨ longPort > 65535 then none
      else some (UInt16.ofNat longPort.toNat)
    | _ => some defaultPort
  match port with
  | none => (false, output)
  | some port =>
    let output := { output with port := port }
    match libc.inet_pton output.family ip with
    | none => (false, output)
    | some addr => (true, { output with addr := addr })

/-- Returns whether the server was parsed, and `output` as the call leaves it. -/
def parseServer (libc : Libc) (server : Bytes) (defaultPort : UInt16) (output : SockAddr) :
    Bool × SockAddr :=
  match server with
  | 91 :: bracketed => -- '[', up to ']'
    match strchr bracketed 93 with
    | none => (false, output)
    | some (ip, rest) => parsePort libc ip rest defaultPort { output with family := .inet6 }
  | _ =>
    let output := { output with family := .inet }
    match strchr server 58 with
    | some (ip, rest) => parsePort libc ip (58 :: rest) defaultPort output
    | none => parsePort libc server server defaultPort output

structure ConfigParser where
  valid : Bool
  partialForwarder : Forwarder
  forwarders : List Forwarder
  servers : List SockAddr
  ipLookup : SockAddr
  ciphers : Bytes
  maxConnections : Nat
  pidFile : Bytes
  daemonise : Bool
  timeout : Nat
deriving DecidableEq, Repr

/-- A new parser. The source leaves the address and the flag of the partial
forwarder unset; `parseConfig` sets the family before it reads it, and the rest
is reset by the first `pushForwarder`. -/
def ConfigParser.new : ConfigParser where
  valid := true
  partialForwarder := .empty
  forwarders := []
  servers := []
  ipLookup := .unspec
  ciphers := []
  maxConnections := 5
  pidFile := []
  daemonise := false
  timeout := 5

namespace ConfigParser

def addServer (libc : Libc) (p : ConfigParser) (server : Bytes) : ConfigParser :=
  let (parsed, output) := parseServer libc server 53 .unspec
  if parsed then { p with servers := p.servers ++ [output] }
  else { p with valid := false }

def pushForwarder (p : ConfigParser) : ConfigParser :=
  let p :=
    if p.partialForwarder.remote.family ≠ .unspec then
      { p with forwarders := p.forwarders ++ [p.partialForwarder] }
    else if p.partialForwarder.host ≠ [] ∨ p.partialForwarder.pin ≠ [] then
      { p with valid := false }
    else p
  { p with partialForwarder := .empty }

def addForwarder (libc : Libc) (p : ConfigParser) (server : Bytes) : ConfigParser :=
  let (parsed, remote) := parseServer libc server 853 p.partialForwarder.remote
  { p with
    partialForwarder := { p.partialForwarder with remote := remote }
    valid := p.valid && parsed }

def disableVerification (p : ConfigParser) : ConfigParser :=
  { p with partialForwarder := { p.partialForwarder with disablePki := true } }

def addHostname (p : ConfigParser) (hostname : Bytes) : ConfigParser :=
  if p.partialForwarder.host = [] then
    { p with partialForwarder := { p.partialForwarder with host := hostname } }
  else { p with valid := false }

def addPin (libc : Libc) (p : ConfigParser) (pin : Bytes) : ConfigParser :=
  let decoded := decode libc pin
  { p with
    partialForwarder := { p.partialForwarder with pin := decoded }
    valid := p.valid && !(pin ≠ [] && decoded = []) }

/-- `setMaxConnections` and `setTimeout` check a decimal string the same way. -/
def decimalUpTo (limit : Int) (number : Bytes) : Option Nat :=
  let (value, rest) := strtol number
  if rest ≠ [] ∨ value < 1 ∨ value > limit then none else some value.toNat

def setMaxConnections (p : ConfigParser) (maxConnections : Bytes) : ConfigParser :=
  match decimalUpTo 6000 maxConnections with
  | none => { p with valid := false }
  | some longConnections => { p with maxConnections := longConnections }

def setTimeout (p : ConfigParser) (timeout : Bytes) : ConfigParser :=
  match decimalUpTo 0xffff timeout with
  | none => { p with valid := false }
  | some longTimeout => { p with timeout := longTimeout }

def setIpLookup (libc : Libc) (p : ConfigParser) (server : Bytes) : ConfigParser :=
  let (parsed, output) := parseServer libc server 853 p.ipLookup
  { p with ipLookup := output, valid := p.valid && parsed }

/-- The `switch` of `parseConfig`. -/
def parseOption (libc : Libc) (p : ConfigParser) (c : Char) (optarg : Bytes) : ConfigParser :=
  match c with
  | 's' => p.addServer libc optarg
  | 'f' => p.pushForwarder.addForwarder libc optarg
  | 'h' => p.addHostname optarg
  | 'i' => p.disableVerification
  | 'p' => p.addPin libc optarg
  | 'c' => { p with ciphers := optarg }
  | 'm' => p.setMaxConnections optarg
  | 'd' => { p with daemonise := true }
  | 'P' => { p with pidFile := optarg }
  | 'l' => p.setIpLookup libc optarg
  | 't' => p.setTimeout optarg
  | _ => { p with valid := false }

/-- The loop of `parseConfig` stops asking for options once one was invalid. -/
def parseOptions (libc : Libc) : ConfigParser → List (Char × Bytes) → ConfigParser
  | p, [] => p
  | p, (c, optarg) :: options =>
    if p.valid then parseOptions libc (p.parseOption libc c optarg) options else p

/-- When the loop stops early `optind` is smaller than what `getopt_long` would
reach, but then the parser is invalid already. -/
def parseConfig (libc : Libc) (p : ConfigParser) (argv : List Bytes) : ConfigParser :=
  let remote := { p.partialForwarder.remote with family := .unspec }
  let p := { p with partialForwarder := { p.partialForwarder with remote := remote } }
  let getopt := libc.getopt_long argv
  let p := (parseOptions libc p getopt.options).pushForwarder
  if getopt.optind ≠ argv.length then { p with valid := false } else p

def addDefaultForwarder (libc : Libc) (p : ConfigParser) (server : Bytes) : ConfigParser :=
  let (parsed, remote) := parseServer libc server 853 .unspec
  if parsed then
    { p with forwarders := p.forwarders ++ [⟨remote, false, bytes "cloudflare-dns.com", []⟩] }
  else p

def defaultForwarders (libc : Libc) (p : ConfigParser) : ConfigParser :=
  [bytes "[2606:4700:4700::1111]", bytes "[2606:4700:4700::1001]", bytes "1.1.1.1",
    bytes "1.0.0.1"].foldl (addDefaultForwarder libc) p

def addDefaultServer (libc : Libc) (p : ConfigParser) (server : Bytes) : ConfigParser :=
  let (parsed, address) := parseServer libc server 53 .unspec
  if parsed then { p with servers := p.servers ++ [address] } else p

def defaultServers (libc : Libc) (p : ConfigParser) : ConfigParser :=
  [bytes "127.0.0.1", bytes "[::1]"].foldl (addDefaultServer libc) p

def setDefaults (libc : Libc) (p : ConfigParser) : ConfigParser :=
  let p := if p.forwarders = [] then p.defaultForwarders libc else p
  let p := if p.servers = [] then p.defaultServers libc else p
  if p.ciphers = [] then { p with ciphers := bytes "DEFAULT" } else p

/-- The parsers a program can hold: the class has no other way to change one. -/
inductive Built (libc : Libc) : ConfigParser → Prop
  | new : Built libc .new
  | parseConfig (p : ConfigParser) (argv : List Bytes) (h : Built libc p) :
      Built libc (p.parseConfig libc argv)
  | setDefaults (p : ConfigParser) (h : Built libc p) : Built libc (p.setDefaults libc)

end ConfigParser

end Dote.Config
