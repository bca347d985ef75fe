import PqcUtils.Dump.Tls.Walks
import PqcUtils.Wire.OfferedHello

/-!
# The client hello parser decodes the wire format

Behind any header the vectors of a client hello are read as they were written,
and what stands behind them is not looked at. Of a proper initial part of a hello
no more is read than its length allows: it is rejected.
-/

namespace PqcUtils.Dump

open Bytes Wire

theorem readCipherSuites_of_drop {data rest : Bytes} {offset : Nat} (values : List UInt16)
    (remaining : data.drop offset = values.flatMap ofUInt16 ++ rest) :
    readCipherSuites data values.length offset = .ok (values, offset + 2 * values.length) := by
  induction values generalizing offset with
  | nil => rfl
  | cons value values ih =>
    rw [List.flatMap_cons, List.append_assoc] at remaining
    have behind := drop_add_of_drop (ofUInt16 value) remaining
    rw [length_ofUInt16] at behind
    simp only [List.length_cons, readCipherSuites, index16_of_drop remaining, ih behind,
      Outcome.ok_bind, Outcome.pure_eq_ok, Outcome.ok.injEq, Prod.mk.injEq, true_and]
    omega

/-- The head of an initial part of a hello: rejected, or read with all its vectors. -/
theorem parseHelloHead_of_isPrefix (vectors : HelloVectors) {front rest data : Bytes}
    (length_front : front.length = 43) (initial : data <+: front ++ (vectors.encode ++ rest)) :
    (data.length < 43 + vectors.encode.length ∧ ∃ error, parseHelloHead data = .err error) ∨
    (∃ offset behind, 43 + vectors.encode.length ≤ data.length ∧
      data.drop offset = vectors.extensionBytes ++ behind ∧
      parseHelloHead data =
        .ok ⟨vectors.cipherSuites, offset, offset + vectors.extensionBytes.length⟩) := by
  have atVectors : data.drop 43 <+: vector8 vectors.sessionId ++
      (vector16 (vectors.cipherSuites.flatMap ofUInt16) ++
        (vector8 vectors.compressionMethods ++ (vector16 vectors.extensionBytes ++ rest))) := by
    have dropped := List.IsPrefix.drop initial 43
    rw [← length_front, List.drop_left] at dropped
    simpa [HelloVectors.encode, length_front] using dropped
  have total := vectors.length_encode
  have evenLength : (vectors.cipherSuites.flatMap ofUInt16).length =
      2 * vectors.cipherSuites.length := length_flatMap_ofUInt16 _
  generalize outcome : parseHelloHead data = result
  simp only [parseHelloHead] at outcome
  rcases Outcome.rejectIf_bind_cases outcome with ⟨short, rfl⟩ | ⟨-, outcome⟩
  · exact .inl ⟨by omega, _, rfl⟩
  rcases Outcome.rejectIf_bind_cases outcome with ⟨short, rfl⟩ | ⟨enough, outcome⟩
  · exact .inl ⟨by omega, _, rfl⟩
  -- The session id.
  obtain ⟨sessionIdLen, read, number, behind⟩ :=
    exists_number_of_vector8 vectors.fits_sessionId atVectors (Nat.lt_of_not_le enough)
  rw [read, Outcome.ok_bind, number] at outcome
  rcases Outcome.rejectIf_bind_cases outcome with ⟨short, rfl⟩ | ⟨enough, outcome⟩
  · exact .inl ⟨by omega, _, rfl⟩
  have atCiphers := behind (Nat.le_of_not_lt enough)
  rcases Outcome.rejectIf_bind_cases outcome with ⟨short, rfl⟩ | ⟨enough, outcome⟩
  · exact .inl ⟨by omega, _, rfl⟩
  -- The cipher suites.
  obtain ⟨cipherSuitesLen, read, number, behind⟩ :=
    exists_number_of_vector16 (evenLength ▸ vectors.fits_cipherSuites) atCiphers
      (Nat.le_of_not_lt enough)
  rw [evenLength] at number behind
  rw [read, Outcome.ok_bind, number] at outcome
  rcases Outcome.rejectIf_bind_cases outcome with ⟨short, rfl⟩ | ⟨enough, outcome⟩
  · exact .inl ⟨by omega, _, rfl⟩
  obtain ⟨ciphers, atCompression⟩ := behind (Nat.le_of_not_lt enough)
  rw [show (2 * vectors.cipherSuites.length + 1) / 2 = vectors.cipherSuites.length by omega,
    readCipherSuites_of_drop _ ciphers, Outcome.ok_bind] at outcome
  rcases Outcome.rejectIf_bind_cases outcome with ⟨short, rfl⟩ | ⟨enough, outcome⟩
  · exact .inl ⟨by omega, _, rfl⟩
  -- The compression methods.
  obtain ⟨compLen, read, number, behind⟩ :=
    exists_number_of_vector8 vectors.fits_compressionMethods atCompression
      (Nat.lt_of_not_le enough)
  rw [read, Outcome.ok_bind, number, ← Nat.add_assoc] at outcome
  rcases Outcome.rejectIf_bind_cases outcome with ⟨short, rfl⟩ | ⟨enough, outcome⟩
  · exact .inl ⟨by omega, _, rfl⟩
  have atExtensions := behind (by omega)
  -- The extensions.
  obtain ⟨extensionsLen, read, number, behind⟩ :=
    exists_number_of_vector16 vectors.fits_extensions atExtensions (Nat.le_of_not_lt enough)
  rw [read, Outcome.ok_bind, number] at outcome
  rcases Outcome.rejectIf_bind_cases outcome with ⟨short, rfl⟩ | ⟨enough, outcome⟩
  · exact .inl ⟨by omega, _, rfl⟩
  obtain ⟨extensions, -⟩ := behind (Nat.le_of_not_lt enough)
  exact .inr ⟨_, _, by omega, extensions, outcome.symm⟩

/-- Behind any 43 bytes the vectors are read, whatever follows them; the loop over the extensions
walks along the last one. -/
theorem parseSslV3ClientHello_encode (vectors : HelloVectors) {front : Bytes}
    (length_front : front.length = 43) (rest : Bytes) :
    parseSslV3ClientHello (front ++ (vectors.encode ++ rest)) =
      (blockGroups (Tagged.split vectors.extensionBytes).1
        (Tagged.split vectors.extensionBytes).2).andThen fun groups =>
          .ok ⟨vectors.cipherSuites, groups⟩ := by
  have initial : front ++ (vectors.encode ++ rest) <+: front ++ (vectors.encode ++ rest) :=
    List.prefix_rfl
  rcases parseHelloHead_of_isPrefix vectors length_front initial with
    ⟨short, -⟩ | ⟨offset, behind, -, extensions, head⟩
  · rw [List.length_append, List.length_append, length_front] at short
    omega
  · rw [parseSslV3ClientHello, head, Outcome.ok_bind, readExtensions_eq_blockGroups extensions rfl]
    rfl

/-! ## Whole extensions -/

theorem sharesGroups_flatMap {shares : List Tagged} (fits : ∀ share ∈ shares, share.Fits) :
    sharesGroups (shares.flatMap Tagged.encode) = .ok (shares.map Tagged.tag) := by
  rw [sharesGroups, Tagged.split_flatMap fits]
  rfl

theorem extensionGroups_keyShare (listLength : UInt16) {shares : List Tagged}
    (fits : ∀ share ∈ shares, share.Fits) :
    extensionGroups ⟨keyShareType, ofUInt16 listLength ++ shares.flatMap Tagged.encode⟩ =
      .ok (shares.map Tagged.tag) := by
  have behind : (ofUInt16 listLength ++ shares.flatMap Tagged.encode).drop 2 =
      shares.flatMap Tagged.encode := rfl
  have long : ¬(ofUInt16 listLength ++ shares.flatMap Tagged.encode).length < 2 := by
    rw [List.length_append, length_ofUInt16]
    omega
  rw [extensionGroups, if_pos rfl, Outcome.rejectIf_of_not long, Outcome.ok_bind, behind,
    sharesGroups_flatMap fits]

theorem extensionGroups_offered {extension : OfferedExtension} (fits : extension.toTagged.Fits) :
    extensionGroups extension.toTagged = .ok extension.groups := by
  cases extension with
  | keyShare listLength shares =>
    rw [Tagged.Fits, OfferedExtension.toTagged, List.length_append] at fits
    exact extensionGroups_keyShare listLength (Tagged.fits_of_length_flatMap (by omega))
  | other extension distinct => exact if_neg distinct

theorem blockGroups_offered {extensions : List OfferedExtension}
    (fits : ∀ extension ∈ extensions.map OfferedExtension.toTagged, extension.Fits) :
    blockGroups (extensions.map OfferedExtension.toTagged) [] =
      .ok (extensions.flatMap OfferedExtension.groups) := by
  induction extensions with
  | nil => rfl
  | cons first extensions ih =>
    rw [List.map_cons, List.forall_mem_cons] at fits
    rw [List.map_cons, blockGroups, extensionGroups_offered fits.1, Outcome.ok_bind, ih fits.2,
      Outcome.ok_bind]
    rfl

theorem parseSslV3ClientHello_of_offered {vectors : HelloVectors}
    {extensions : List OfferedExtension}
    (whole : vectors.extensionBytes = extensions.flatMap OfferedExtension.encode) {front : Bytes}
    (length_front : front.length = 43) (rest : Bytes) :
    parseSslV3ClientHello (front ++ (vectors.encode ++ rest)) =
      .ok ⟨vectors.cipherSuites, extensions.flatMap OfferedExtension.groups⟩ := by
  have items : vectors.extensionBytes =
      (extensions.map OfferedExtension.toTagged).flatMap Tagged.encode := by
    rw [whole, List.flatMap_map]
    rfl
  have fits := Tagged.fits_of_length_flatMap (items ▸ vectors.fits_extensions)
  rw [parseSslV3ClientHello_encode vectors length_front, items, Tagged.split_flatMap fits,
    blockGroups_offered fits]
  rfl

/-! ## Hellos -/

/-- Every client hello is decoded, whatever its headers say and whatever follows it. -/
theorem parseSslV3ClientHello_offeredHello (hello : OfferedHello) (trailing : Bytes) :
    parseSslV3ClientHello (hello.encode ++ trailing) = .ok ⟨hello.cipherSuites, hello.groups⟩ := by
  have length_front : (hello.recordHeader ++ (0x01 :: hello.handshakeLength) ++
      ofUInt16 hello.version ++ hello.random).length = 43 := by
    simp [hello.length_recordHeader, hello.length_handshakeLength, hello.length_random]
  rw [OfferedHello.encode, List.append_assoc]
  exact parseSslV3ClientHello_of_offered rfl length_front trailing

-- The hello lies about its length and about that of its key shares.
example : ∃ hello : OfferedHello, parseSslV3ClientHello (hello.encode ++ [0xff]) =
    .ok ⟨[0x1301, 0x1302], [0x11ec, 0x001d]⟩ := by
  refine ⟨⟨[0x16, 0x03, 0x01, 0xff, 0xff], [0x00, 0xff, 0xff], 0x0303, .replicate 32 0, [7],
    [0x1301, 0x1302], [0], [.other ⟨0x000a, [0x00, 0x02, 0x00, 0x1d]⟩ (by decide),
      .keyShare 9 [⟨0x11ec, [1, 2, 3]⟩, ⟨0x001d, [4]⟩]], ?_, ?_, ?_, ?_, ?_, ?_, ?_⟩, ?_⟩
  all_goals decide +kernel

theorem parseSslV3ClientHello_vectors (hello : ClientHello) {front : Bytes}
    (length_front : front.length = 43) (rest : Bytes) :
    parseSslV3ClientHello (front ++ (hello.vectors ++ rest)) =
      .ok ⟨hello.cipherSuites, hello.groups⟩ := by
  have whole : hello.toVectors.extensionBytes =
      (hello.extensions.map Extension.toOffered).flatMap OfferedExtension.encode := by
    rw [List.flatMap_map]
    simp only [Extension.encode_toOffered]
    rfl
  have groups : (hello.extensions.map Extension.toOffered).flatMap OfferedExtension.groups =
      hello.groups := by
    rw [List.flatMap_map]
    simp only [Extension.groups_toOffered]
    rfl
  rw [← hello.encode_toVectors, parseSslV3ClientHello_of_offered whole length_front, groups]
  rfl

theorem parseSslV3ClientHello_cut (hello : ClientHello) {front data : Bytes}
    (length_front : front.length = 43) (initial : data <+: front ++ hello.vectors)
    (cut : data.length < 43 + hello.vectors.length) :
    ∃ error, parseSslV3ClientHello data = .err error := by
  rw [← List.append_nil hello.vectors] at initial
  rcases parseHelloHead_of_isPrefix hello.toVectors length_front initial with
    ⟨-, error, head⟩ | ⟨_, _, complete, -, -⟩
  · exact ⟨error, by rw [parseSslV3ClientHello, head, Outcome.err_bind]⟩
  · rw [hello.encode_toVectors] at complete
    omega

end PqcUtils.Dump
