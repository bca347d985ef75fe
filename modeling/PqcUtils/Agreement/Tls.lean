import PqcUtils.Dump.Tls.Parsing
import PqcUtils.Scan.Tls.Encoding

/-!
# The dump tool reads the scanner's client hello

Whatever the builder of the scanner returns is a client hello of the wire format,
and so the dump tool decodes it to the suites and groups that were added. Only an
empty extension under the number of the key shares is not one: the builder writes
it, and the dump tool wants at least the two bytes of the length of the list.
-/

namespace PqcUtils.Agreement

open Scan

/-- The hello of a builder that was asked for no empty key share extension is decoded to the
cipher suites and the groups that were added, in their order. -/
theorem clientHello_decoded {random sessionId : List.Vector UInt8 32} {calls : List BuilderCall}
    {builder : ClientHelloBuilder} {buf : Bytes} (plain : WithoutEmptyKeyShare calls)
    (built : buildHello random sessionId calls = some builder)
    (encoded : builder.intoBuf = .ok buf) :
    Dump.parseSslV3ClientHello buf =
      .ok ⟨calls.flatMap BuilderCall.cipherSuites, calls.flatMap BuilderCall.groups⟩ := by
  obtain ⟨hello, rfl, cipherSuites, groups⟩ :=
    exists_hello_of_intoBuf (builtBy_of_buildHello plain built) encoded
  obtain ⟨front, length_front, record⟩ := hello.record_eq 1
  have decoded := Dump.parseSslV3ClientHello_vectors hello length_front []
  rw [List.append_nil] at decoded
  rw [record, decoded, cipherSuites, groups]

/-! ## Two hellos -/

def zeros : List.Vector UInt8 32 := List.Vector.replicate 32 0

def smallCalls : List BuilderCall :=
  [.addCipherSuite 0x1301, .addCompressionMethod 0, .addExtension (.supportedGroups [0x11ec]),
    .addExtension (.keyShare [(0x11ec, [1, 2, 3])])]

theorem clientHello_decoded_small :
    ∃ builder buf, buildHello zeros zeros smallCalls = some builder ∧
      builder.intoBuf = .ok buf ∧ Dump.parseSslV3ClientHello buf = .ok ⟨[0x1301], [0x11ec]⟩ := by
  have plain : WithoutEmptyKeyShare smallCalls := by
    unfold WithoutEmptyKeyShare
    decide
  have built : buildHello zeros zeros smallCalls = some _ := rfl
  exact ⟨_, _, built, rfl, clientHello_decoded plain built rfl⟩

/-- An empty extension under the number 51 is written, and rejected by the dump tool. -/
theorem empty_key_share_rejected :
    ∃ builder buf, buildHello zeros zeros [.addExtension (.emptyExtension 51)] = some builder ∧
      builder.intoBuf = .ok buf ∧
      Dump.parseSslV3ClientHello buf = .err "KeyShare extension too short" :=
  ⟨_, _, rfl, rfl, by decide +kernel⟩

end PqcUtils.Agreement
