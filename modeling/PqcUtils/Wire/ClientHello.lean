import PqcUtils.Library.Bytes

/-!
# The TLS client hello

A client hello as it stands on the wire: fixed fields, then four vectors behind
their lengths. The last one holds the extensions, among them the key shares that
say which groups the client offers. The lengths that must fit are fields.
-/

namespace PqcUtils.Wire

open Bytes

structure KeyShare where
  group : UInt16
  keyExchange : Bytes

def KeyShare.encode (share : KeyShare) : Bytes :=
  ofUInt16 share.group ++ vector16 share.keyExchange

/-- The number of the extension that holds key shares. -/
def keyShareType : UInt16 := 0x0033

inductive Extension where
  | keyShare (shares : List KeyShare)
  | other (number : UInt16) (payload : Bytes) (distinct : number ≠ keyShareType)

namespace Extension

def number : Extension → UInt16
  | .keyShare _ => keyShareType
  | .other number _ _ => number

def payload : Extension → Bytes
  | .keyShare shares => vector16 (shares.flatMap KeyShare.encode)
  | .other _ payload _ => payload

def encode (extension : Extension) : Bytes :=
  ofUInt16 extension.number ++ vector16 extension.payload

def groups : Extension → List UInt16
  | .keyShare shares => shares.map KeyShare.group
  | .other _ _ _ => []

@[simp] theorem length_encode (extension : Extension) :
    extension.encode.length = 4 + extension.payload.length := by
  simp [encode]
  omega

end Extension

@[simp] theorem length_flatMap_ofUInt16 (values : List UInt16) :
    (values.flatMap ofUInt16).length = 2 * values.length := by
  simp [List.length_flatMap, Nat.mul_comm]

/-- The four vectors of a client hello, the last one as bytes. -/
structure HelloVectors where
  sessionId : Bytes
  cipherSuites : List UInt16
  compressionMethods : Bytes
  extensionBytes : Bytes
  fits_sessionId : sessionId.length < 2 ^ 8
  fits_cipherSuites : 2 * cipherSuites.length < 2 ^ 16
  fits_compressionMethods : compressionMethods.length < 2 ^ 8
  fits_extensions : extensionBytes.length < 2 ^ 16

namespace HelloVectors

def encode (vectors : HelloVectors) : Bytes :=
  vector8 vectors.sessionId ++ (vector16 (vectors.cipherSuites.flatMap ofUInt16) ++
    (vector8 vectors.compressionMethods ++ vector16 vectors.extensionBytes))

theorem length_encode (vectors : HelloVectors) :
    vectors.encode.length = 6 + vectors.sessionId.length + 2 * vectors.cipherSuites.length +
      vectors.compressionMethods.length + vectors.extensionBytes.length := by
  simp [encode]
  omega

end HelloVectors

structure ClientHello where
  version : UInt16
  random : Bytes
  sessionId : Bytes
  cipherSuites : List UInt16
  compressionMethods : Bytes
  extensions : List Extension
  length_random : random.length = 32
  fits_sessionId : sessionId.length < 2 ^ 8
  fits_cipherSuites : 2 * cipherSuites.length < 2 ^ 16
  fits_compressionMethods : compressionMethods.length < 2 ^ 8
  fits_extensions : (extensions.flatMap Extension.encode).length < 2 ^ 16

namespace ClientHello

def extensionBytes (hello : ClientHello) : Bytes := hello.extensions.flatMap Extension.encode

def vectors (hello : ClientHello) : Bytes :=
  vector8 hello.sessionId ++ (vector16 (hello.cipherSuites.flatMap ofUInt16) ++
    (vector8 hello.compressionMethods ++ vector16 hello.extensionBytes))

def body (hello : ClientHello) : Bytes :=
  ofUInt16 hello.version ++ hello.random ++ hello.vectors

def groups (hello : ClientHello) : List UInt16 := hello.extensions.flatMap Extension.groups

/-- The vectors as they are read: the extensions are bytes. -/
def toVectors (hello : ClientHello) : HelloVectors where
  sessionId := hello.sessionId
  cipherSuites := hello.cipherSuites
  compressionMethods := hello.compressionMethods
  extensionBytes := hello.extensionBytes
  fits_sessionId := hello.fits_sessionId
  fits_cipherSuites := hello.fits_cipherSuites
  fits_compressionMethods := hello.fits_compressionMethods
  fits_extensions := hello.fits_extensions

theorem encode_toVectors (hello : ClientHello) : hello.toVectors.encode = hello.vectors := rfl

def FitsRecord (hello : ClientHello) : Prop := hello.body.length + 4 < 2 ^ 16

instance (hello : ClientHello) : Decidable hello.FitsRecord :=
  inferInstanceAs (Decidable (hello.body.length + 4 < 2 ^ 16))

def record (hello : ClientHello) (minor : UInt8) : Bytes :=
  [0x16, 0x03, minor] ++ ofUInt16 (.ofNat (hello.body.length + 4)) ++
    ([0x01, 0x00] ++ ofUInt16 (.ofNat hello.body.length)) ++ hello.body

theorem record_eq (hello : ClientHello) (minor : UInt8) :
    ∃ front : Bytes, front.length = 43 ∧ hello.record minor = front ++ hello.vectors := by
  refine ⟨[0x16, 0x03, minor] ++ ofUInt16 (.ofNat (hello.body.length + 4)) ++
    ([0x01, 0x00] ++ ofUInt16 (.ofNat hello.body.length)) ++
    (ofUInt16 hello.version ++ hello.random), by simp [hello.length_random], ?_⟩
  simp [record, body]

theorem length_record (hello : ClientHello) (minor : UInt8) :
    (hello.record minor).length = 43 + hello.vectors.length := by
  obtain ⟨front, length_front, eq⟩ := hello.record_eq minor
  rw [eq, List.length_append, length_front]

end ClientHello

theorem length_zeros : (List.replicate 32 0 : Bytes).length = 32 := List.length_replicate

/-- A client hello with one cipher suite and one key share. -/
def smallHello : ClientHello where
  version := 0x0303
  random := List.replicate 32 0
  sessionId := []
  cipherSuites := [0x1301]
  compressionMethods := [0]
  extensions := [.keyShare [⟨0x001d, [9]⟩]]
  length_random := length_zeros
  fits_sessionId := by decide
  fits_cipherSuites := by decide
  fits_compressionMethods := by decide
  fits_extensions := by decide

def plainHello : ClientHello :=
  { smallHello with extensions := [], fits_extensions := by decide }

end PqcUtils.Wire
