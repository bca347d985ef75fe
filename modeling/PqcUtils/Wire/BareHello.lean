import PqcUtils.Wire.Hello

/-!
# A hello without an extensions block

Up to version 1.2 a hello may end with its compression field. Then not even the
length of the extensions is there.
-/

namespace PqcUtils.Wire

open Bytes

inductive BareFields where
  | client (cipherSuites : List UInt16) (compressionMethods : Bytes)
      (fits_cipherSuites : 2 * cipherSuites.length < 2 ^ 16)
      (fits_compressionMethods : compressionMethods.length < 2 ^ 8)
  | server (cipherSuite : UInt16) (compressionMethod : UInt8)

namespace BareFields

def handshakeType : BareFields → UInt8
  | .client .. => 0x01
  | .server .. => 0x02

def cipherSuites : BareFields → List UInt16
  | .client cipherSuites .. => cipherSuites
  | .server cipherSuite _ => [cipherSuite]

def encode : BareFields → Bytes
  | .client cipherSuites compressionMethods _ _ =>
    vector16 (cipherSuites.flatMap ofUInt16) ++ vector8 compressionMethods
  | .server cipherSuite compressionMethod => ofUInt16 cipherSuite ++ [compressionMethod]

end BareFields

/-- A handshake message in a record, each behind any header of its size. -/
structure BareHello where
  recordHeader : Bytes
  handshakeLength : Bytes
  version : UInt16
  random : Bytes
  sessionId : Bytes
  fields : BareFields
  length_recordHeader : recordHeader.length = 5
  length_handshakeLength : handshakeLength.length = 3
  length_random : random.length = 32
  fits_sessionId : sessionId.length < 2 ^ 8

namespace BareHello

def front (hello : BareHello) : Bytes :=
  hello.recordHeader ++ (hello.fields.handshakeType :: hello.handshakeLength) ++
    ofUInt16 hello.version ++ hello.random

def encode (hello : BareHello) : Bytes :=
  hello.front ++ (vector8 hello.sessionId ++ hello.fields.encode)

theorem length_front (hello : BareHello) : hello.front.length = 43 := by
  simp [front, hello.length_recordHeader, hello.length_handshakeLength, hello.length_random]

theorem handshakeType_encode (hello : BareHello) :
    hello.encode[5]? = some hello.fields.handshakeType := by
  simp [encode, front, hello.length_recordHeader]

end BareHello

theorem noSessionId_fits : ([] : Bytes).length < 2 ^ 8 := Nat.two_pow_pos 8

def smallBareHello (fields : BareFields) (length : UInt8) : BareHello where
  recordHeader := [0x16, 0x03, 0x01, 0x00, length + 4]
  handshakeLength := [0x00, 0x00, length]
  version := 0x0303
  random := List.replicate 32 0
  sessionId := []
  fields
  length_recordHeader := rfl
  length_handshakeLength := rfl
  length_random := length_zeros
  fits_sessionId := noSessionId_fits

end PqcUtils.Wire
