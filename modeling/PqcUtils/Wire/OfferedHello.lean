import PqcUtils.Library.Tagged
import PqcUtils.Wire.ClientHello

/-!
# Client hellos with any extensions

A client hello behind any headers, with extensions of any number and content. Of
an extension with key shares only the shares have to be complete: the number in
front of them may be wrong.
-/

namespace PqcUtils.Wire

open Bytes

inductive OfferedExtension where
  | keyShare (listLength : UInt16) (shares : List Tagged)
  | other (extension : Tagged) (distinct : extension.tag ≠ keyShareType)

namespace OfferedExtension

def toTagged : OfferedExtension → Tagged
  | .keyShare listLength shares =>
    ⟨keyShareType, ofUInt16 listLength ++ shares.flatMap Tagged.encode⟩
  | .other extension _ => extension

def encode (extension : OfferedExtension) : Bytes := extension.toTagged.encode

def groups : OfferedExtension → List UInt16
  | .keyShare _ shares => shares.map Tagged.tag
  | .other _ _ => []

end OfferedExtension

/-- The length of the list is right in a proper extension. -/
def Extension.toOffered : Extension → OfferedExtension
  | .keyShare shares =>
    .keyShare (.ofNat (shares.flatMap KeyShare.encode).length)
      (shares.map fun share => ⟨share.group, share.keyExchange⟩)
  | .other number payload distinct => .other ⟨number, payload⟩ distinct

theorem Extension.encode_toOffered (extension : Extension) :
    extension.toOffered.encode = extension.encode := by
  cases extension with
  | keyShare shares =>
    have same : (shares.map fun share => (⟨share.group, share.keyExchange⟩ : Tagged)).flatMap
        Tagged.encode = shares.flatMap KeyShare.encode := by
      rw [List.flatMap_map]
      rfl
    rw [toOffered, OfferedExtension.encode, OfferedExtension.toTagged, same]
    rfl
  | other number payload distinct => rfl

theorem Extension.groups_toOffered (extension : Extension) :
    extension.toOffered.groups = extension.groups := by
  cases extension with
  | keyShare shares => simp [toOffered, OfferedExtension.groups, groups]
  | other number payload distinct => rfl

/-- A handshake message of type 1 in a record, each behind any header of its size. -/
structure OfferedHello where
  recordHeader : Bytes
  handshakeLength : Bytes
  version : UInt16
  random : Bytes
  sessionId : Bytes
  cipherSuites : List UInt16
  compressionMethods : Bytes
  extensions : List OfferedExtension
  length_recordHeader : recordHeader.length = 5
  length_handshakeLength : handshakeLength.length = 3
  length_random : random.length = 32
  fits_sessionId : sessionId.length < 2 ^ 8
  fits_cipherSuites : 2 * cipherSuites.length < 2 ^ 16
  fits_compressionMethods : compressionMethods.length < 2 ^ 8
  fits_extensions : (extensions.flatMap OfferedExtension.encode).length < 2 ^ 16

namespace OfferedHello

def vectors (hello : OfferedHello) : HelloVectors where
  sessionId := hello.sessionId
  cipherSuites := hello.cipherSuites
  compressionMethods := hello.compressionMethods
  extensionBytes := hello.extensions.flatMap OfferedExtension.encode
  fits_sessionId := hello.fits_sessionId
  fits_cipherSuites := hello.fits_cipherSuites
  fits_compressionMethods := hello.fits_compressionMethods
  fits_extensions := hello.fits_extensions

def encode (hello : OfferedHello) : Bytes :=
  hello.recordHeader ++ (0x01 :: hello.handshakeLength) ++ ofUInt16 hello.version ++
    hello.random ++ hello.vectors.encode

def groups (hello : OfferedHello) : List UInt16 :=
  hello.extensions.flatMap OfferedExtension.groups

end OfferedHello

end PqcUtils.Wire
