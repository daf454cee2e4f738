import Dote.Config.ConfigParser

/-! The VyOS configuration loader: values of the configuration store become
argument vectors for the command line parser. -/
namespace Dote.Config

/-- The values of a VyOS configuration store by path. -/
abbrev Store := List String → Option Bytes

/-- `config` is `none` when the library or its store could not be opened. -/
structure Vyatta where
  config : Option Store

namespace Vyatta

def getValue (vyatta : Vyatta) (paths : List String) : Bytes :=
  match vyatta.config with
  | none => []
  | some store => (store paths).getD []

def nameArg : Bytes := []
def serverFlag : Bytes := bytes "-s"
def forwarderFlag : Bytes := bytes "-f"
def pinFlag : Bytes := bytes "-p"
def hostnameFlag : Bytes := bytes "-h"

def serverPath (index : Nat) : List String :=
  ["custom-attribute", "dote-server" ++ toString index, "value"]

def forwarderPath (index : Nat) : List String :=
  ["custom-attribute", "dote-forwarder" ++ toString index, "value"]

def pinPath (index : Nat) : List String :=
  ["custom-attribute", "dote-forwarder" ++ toString index ++ "-pin", "value"]

def hostnamePath (index : Nat) : List String :=
  ["custom-attribute", "dote-forwarder" ++ toString index ++ "-hostname", "value"]

/-- The loops of the source have no bound; these give up with `none` when the
fuel is used up before an empty value is found. -/
def loadServers (libc : Libc) (vyatta : Vyatta) : Nat → Nat → ConfigParser → Option ConfigParser
  | 0, _, _ => none
  | fuel + 1, index, parser =>
    let server := vyatta.getValue (serverPath index)
    if server = [] then some parser
    else
      loadServers libc vyatta fuel (index + 1)
        (parser.parseConfig libc [nameArg, serverFlag, server])

/-- The argument vector for one forwarder. Both flags are passed when their
value is empty. -/
def forwarderArgs (forwarder pin hostname : Bytes) : List Bytes :=
  [nameArg, forwarderFlag, forwarder] ++
    (if pin = [] then [pinFlag, pin] else []) ++
    (if hostname = [] then [hostnameFlag, hostname] else [])

def loadForwarders (libc : Libc) (vyatta : Vyatta) :
    Nat → Nat → ConfigParser → Option ConfigParser
  | 0, _, _ => none
  | fuel + 1, index, parser =>
    let forwarder := vyatta.getValue (forwarderPath index)
    if forwarder = [] then some parser
    else
      let pin := vyatta.getValue (pinPath index)
      let hostname := vyatta.getValue (hostnamePath index)
      loadForwarders libc vyatta fuel (index + 1)
        (parser.parseConfig libc (forwarderArgs forwarder pin hostname))

def loadConfig (libc : Libc) (vyatta : Vyatta) (fuel : Nat) (parser : ConfigParser) :
    Option ConfigParser :=
  (loadServers libc vyatta fuel 0 parser).bind (loadForwarders libc vyatta fuel 0)

end Vyatta

end Dote.Config
