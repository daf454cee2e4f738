import Dote.Bytes

/-! What the program reads of a certificate. The accessors of OpenSSL are the
fields; nothing is assumed of their contents. -/
namespace Dote.Openssl

/-- The data and the length of an `ASN1_STRING`. The data is a pointer: it can
be read at any index, and nothing is known of the bytes from `length` on. -/
structure Asn1String where
  data : Nat → UInt8
  length : Nat

def Asn1String.bytes (name : Asn1String) : Bytes := (List.range name.length).map name.data

def Asn1String.ofBytes (bytes : Bytes) : Asn1String := ⟨fun i => bytes.getD i 0, bytes.length⟩

@[simp] theorem Asn1String.length_bytes (name : Asn1String) :
    name.bytes.length = name.length := by
  simp [Asn1String.bytes]

@[simp] theorem Asn1String.bytes_ofBytes (bytes : Bytes) : (ofBytes bytes).bytes = bytes := by
  apply List.ext_getElem
  · simp [ofBytes]
  · intro i hi hi'
    simp [Asn1String.bytes, ofBytes, hi']

/-- An entry of the subject alternative names; only the dNSName ones are read. -/
inductive GeneralName where
  | dns (dNSName : Asn1String)
  | other

/-- `sanNames` is `none` without a SAN extension, `hash` and `publicKeyHash` are
empty when OpenSSL cannot compute the digest. -/
structure X509 where
  sanNames : Option (List GeneralName)
  commonName : Option Asn1String
  hash : Bytes
  publicKeyHash : Bytes

/-- The names a certificate is judged by: the dNSName entries, or the common
name when there is no SAN extension. -/
def X509.names (certificate : X509) : List Asn1String :=
  match certificate.sanNames with
  | some sanNames => sanNames.filterMap fun
    | .dns dNSName => some dNSName
    | .other => none
  | none => certificate.commonName.toList

end Dote.Openssl
