import Dote.Openssl.Certificate

/-! Hostname verification: the reverse match of a configured hostname against
the names of a certificate, and what it accepts. -/
namespace Dote.Openssl.HostnameVerifier

def dot : UInt8 := 46
def star : UInt8 := 42

/-- The comparisons of the source are strict, so `A` (65) and `Z` (90) are
returned as they are. -/
def lower (c : UInt8) : UInt8 :=
  if 65 < c ∧ c < 90 then c + 32 else c

def matchChar (a b : UInt8) : Bool := lower a == lower b

structure Cursors where
  certLength : Nat
  hostLength : Nat
  dotCount : Nat
deriving DecidableEq, Repr

/-- The `while` loop of `checkHostname`. Both cursors have already moved when a
mismatch breaks out of it. -/
def matchLoop (hostname : Bytes) (certificateName : Nat → UInt8) :
    Nat → Nat → Nat → Cursors
  | certLength + 1, hostLength + 1, dotCount =>
    if !matchChar (hostname.getD hostLength 0) (certificateName certLength) then
      ⟨certLength, hostLength, dotCount⟩
    else
      matchLoop hostname certificateName certLength hostLength
        (if certificateName certLength = dot then dotCount + 1 else dotCount)
  | certLength, hostLength, dotCount => ⟨certLength, hostLength, dotCount⟩

def checkHostname (hostname : Bytes) (certificateName : Nat → UInt8) (length : Nat) : Bool :=
  -- memchr
  if (List.range length).any fun i => certificateName i == 0 then false
  else if length = 0 then false
  else
    let c := matchLoop hostname certificateName length hostname.length 0
    if c.certLength = 0 ∧ c.hostLength = 0 then true
    else if certificateName c.certLength = star ∧ certificateName (c.certLength + 1) = dot then
      decide (2 ≤ c.dotCount)
    else false

def isNameValid (name : Asn1String) (hostname : Bytes) : Bool :=
  checkHostname hostname name.data name.length

def isSanValid (sanNames : List GeneralName) (hostname : Bytes) : Bool :=
  sanNames.any fun currentName =>
    match currentName with
    | .dns dNSName => isNameValid dNSName hostname
    | .other => false

def isCnValid (commonName : Asn1String) (hostname : Bytes) : Bool :=
  isNameValid commonName hostname

def isValid (certificate : X509) (hostname : Bytes) : Bool :=
  if hostname = [] then true
  else
    match certificate.sanNames, certificate.commonName with
    | some sanNames, _ => isSanValid sanNames hostname
    | none, some commonName => isCnValid commonName hostname
    | none, none => false

end Dote.Openssl.HostnameVerifier
