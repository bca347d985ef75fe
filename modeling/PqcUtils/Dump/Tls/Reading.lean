import PqcUtils.Dump.Tls.Parsing
import PqcUtils.Wire.Hello

/-!
# What the hello parsers read

The loops over extensions and key shares walk along tagged items. What they read
is what splitting the bytes into items yields, so whatever a parser accepts can
be told from the payload without it.
-/

namespace PqcUtils.Dump

open Bytes Wire

/-! ## Server hellos: key shares and signature algorithms -/

def KeyShareEntry.ofTagged (item : Tagged) : KeyShareEntry := ⟨item.tag, item.content⟩

theorem length_drop_ge {data : Bytes} {offset count : Nat} (long : offset + count ≤ data.length) :
    count ≤ (data.drop offset).length := by
  rw [List.length_drop]
  omega

theorem exists_header_at {data : Bytes} {offset : Nat} (long : offset + 4 ≤ data.length) :
    ∃ tag length rest, data.drop offset = ofUInt16 tag ++ (ofUInt16 length ++ rest) ∧
      data.drop (offset + 2) = ofUInt16 length ++ rest ∧ data.drop (offset + 4) = rest ∧
      data.length = offset + 4 + rest.length := by
  obtain ⟨tag, length, rest, header⟩ := Tagged.exists_header (length_drop_ge long)
  have second := drop_add_of_drop _ header
  have third := drop_add_of_drop _ second
  simp only [length_ofUInt16, Nat.add_assoc, Nat.reduceAdd] at second third
  refine ⟨tag, length, rest, header, second, third, ?_⟩
  have total := congrArg List.length third
  rw [List.length_drop] at total
  omega

theorem slice_of_drop {data rest : Bytes} {start count : Nat} (remaining : data.drop start = rest)
    (length : data.length = start + rest.length) (inside : count ≤ rest.length) :
    slice data start (start + count) = (.ok (rest.take count) : Outcome String Bytes) := by
  rw [slice, if_pos ⟨by omega, by omega⟩, remaining, Nat.add_sub_cancel_left]

theorem readKeyShareEntries_eq (data : Bytes) (offset : Nat) (inside : offset ≤ data.length) :
    readKeyShareEntries data offset =
      .ok ((Tagged.split (data.drop offset)).1.map KeyShareEntry.ofTagged) := by
  induction left : data.length - offset using Nat.strongRecOn generalizing offset with
  | ind left ih =>
    rw [readKeyShareEntries]
    by_cases long : offset + 4 ≤ data.length
    · obtain ⟨group, keyLen, rest, header, atLength, atKey, total⟩ := exists_header_at long
      rw [if_pos long, index16_of_drop header, index16_of_drop atLength, header,
        Tagged.split_header]
      simp only [Outcome.ok_bind]
      by_cases complete : keyLen.toNat ≤ rest.length
      · have behind : data.drop (offset + 4 + keyLen.toNat) = rest.drop keyLen.toNat := by
          rw [← List.drop_drop, atKey]
        rw [if_neg (by omega), if_pos complete, slice_of_drop atKey total complete,
          Outcome.ok_bind, ih _ (by omega) _ (by omega) rfl, behind]
        rfl
      · rw [if_pos (by omega), if_neg complete]
        rfl
    · rw [if_neg long, Tagged.split_eq_of_short (by rw [List.length_drop]; omega)]
      rfl

theorem parseKeyShare_eq (data : Bytes) :
    parseKeyShare data = .ok ((Tagged.split data).1.map KeyShareEntry.ofTagged) := by
  unfold parseKeyShare
  split
  · rw [Tagged.split_eq_of_short (by omega)]
    rfl
  · rw [readKeyShareEntries_eq data 0 (Nat.zero_le _), List.drop_zero]

theorem readSignatureAlgorithms_eq {data : Bytes} {stop : Nat} (inside : stop ≤ data.length)
    (pos : Nat) : readSignatureAlgorithms data stop pos = .ok () := by
  induction left : stop - pos using Nat.strongRecOn generalizing pos with
  | ind left ih =>
    rw [readSignatureAlgorithms]
    by_cases more : pos + 2 ≤ stop
    · obtain ⟨value, read⟩ := exists_index16 String data pos (by omega)
      rw [if_pos more, read, Outcome.ok_bind, ih _ (by omega) _ rfl]
    · rw [if_neg more]
      rfl

/-- The signature algorithms are only logged, and reading them never goes out of bounds. -/
theorem parseSignatureAlgorithms_eq (data : Bytes) : parseSignatureAlgorithms data = .ok () := by
  unfold parseSignatureAlgorithms
  split
  · rfl
  · next long =>
    obtain ⟨listLen, read⟩ := exists_index16 String data 0 (by omega)
    rw [read, Outcome.ok_bind]
    split
    · rfl
    · next complete => exact readSignatureAlgorithms_eq (by omega) 2

/-! ## Server hellos: extensions -/

/-- A later extension with key shares replaces what an earlier one left. -/
def keyShareEntries (extensions : List Tagged) (entries : List KeyShareEntry) :
    List KeyShareEntry :=
  extensions.foldl (fun entries extension =>
    if extension.tag = keyShareType then
      (Tagged.split extension.content).1.map KeyShareEntry.ofTagged
    else entries) entries

theorem keyShareEntries_cons (extension : Tagged) (extensions : List Tagged)
    (entries : List KeyShareEntry) :
    keyShareEntries (extension :: extensions) entries =
      keyShareEntries extensions (if extension.tag = keyShareType then
        (Tagged.split extension.content).1.map KeyShareEntry.ofTagged else entries) := rfl

theorem keyShareEntries_eq (extensions : List Tagged) (entries : List KeyShareEntry) :
    keyShareEntries extensions entries =
      ((lastKeyShares extensions).map fun extension =>
        (Tagged.split extension.content).1.map KeyShareEntry.ofTagged).getD entries := by
  induction extensions generalizing entries with
  | nil => rfl
  | cons extension extensions ih =>
    rw [keyShareEntries_cons, ih]
    unfold lastKeyShares
    by_cases keyShare : extension.tag = keyShareType
    · simp only [keyShare, if_true, decide_true, List.filter_cons_of_pos, List.getLast?_cons]
      cases (extensions.filter fun extension => extension.tag = keyShareType).getLast? <;> rfl
    · simp [keyShare]

/-- The two extensions whose content is looked at. -/
def sliced (tag : UInt16) : Bool := tag = 0x0033 || tag = 0x000d

/-- The walk panics when it is stuck on one of the two, and stops otherwise. -/
theorem parseExtensionsFrom_eq (extensions : Bytes) (pos : Nat) (entries : List KeyShareEntry) :
    parseExtensionsFrom extensions pos entries =
      if (Tagged.cutOff (Tagged.split (extensions.drop pos)).2).any sliced then .panic
      else .ok (keyShareEntries (Tagged.split (extensions.drop pos)).1 entries) := by
  induction left : extensions.length - pos using Nat.strongRecOn generalizing pos entries with
  | ind left ih =>
    rw [parseExtensionsFrom]
    by_cases long : pos + 4 ≤ extensions.length
    · obtain ⟨extType, extLen, rest, header, atLength, atContent, total⟩ := exists_header_at long
      have walked (entries : List KeyShareEntry) :=
        ih (extensions.length - (pos + 4 + extLen.toNat)) (by omega) _ entries rfl
      rw [if_pos long, index16_of_drop header, index16_of_drop atLength, header,
        Tagged.split_header]
      simp only [Outcome.ok_bind]
      by_cases complete : extLen.toNat ≤ rest.length
      · have behind : extensions.drop (pos + 4 + extLen.toNat) = rest.drop extLen.toNat := by
          rw [← List.drop_drop, atContent]
        rw [behind] at walked
        rw [if_pos complete, slice_of_drop atContent total complete]
        by_cases keyShare : extType = 0x0033
        · have other : ¬extType = 0x000d := by rw [keyShare]; decide
          simp only [if_pos keyShare, if_neg other, Outcome.ok_bind, parseKeyShare_eq,
            Outcome.pure_eq_ok, walked]
          rw [keyShareEntries_cons, if_pos (show extType = keyShareType from keyShare)]
        · simp only [if_neg keyShare, Outcome.ok_bind, parseSignatureAlgorithms_eq,
            Outcome.pure_eq_ok, ite_self, walked]
          rw [keyShareEntries_cons, if_neg (show ¬extType = keyShareType from keyShare)]
      · have outside : slice extensions (pos + 4) (pos + 4 + extLen.toNat) =
            (.panic : Outcome String Bytes) := by
          rw [slice, if_neg (by omega)]
        have behind : extensions.drop (pos + 4 + extLen.toNat) = [] := by
          rw [List.drop_eq_nil_iff]
          omega
        rw [behind, Tagged.split_eq_of_short (show ([] : Bytes).length < 4 by decide)] at walked
        rw [if_neg complete, outside]
        simp only [Tagged.cutOff_header, if_pos (Nat.lt_of_not_le complete), Option.any_some]
        by_cases keyShare : extType = 0x0033
        · simp [keyShare, sliced]
        · by_cases signatures : extType = 0x000d
          · simp [signatures, sliced]
          · simp [keyShare, signatures, sliced, walked, Tagged.cutOff, keyShareEntries]
    · have short : (extensions.drop pos).length < 4 := by
        rw [List.length_drop]
        omega
      rw [if_neg long, Tagged.split_eq_of_short short, Tagged.cutOff_of_short short]
      rfl

/-! ## Server hellos -/

theorem singleGroup_map_eq_some_iff {shares : List Tagged} {group : UInt16} :
    singleGroup (shares.map KeyShareEntry.ofTagged) = some group ↔
      shares.map Tagged.tag = [group] := by
  match shares with
  | [] => simp [singleGroup]
  | [share] => simp [singleGroup, KeyShareEntry.ofTagged]
  | _ :: _ :: shares => simp [singleGroup]

theorem singleGroup_keyShareEntries_iff {extensions : List Tagged} {group : UInt16} :
    singleGroup (keyShareEntries extensions []) = some group ↔
      ∃ extension, lastKeyShares extensions = some extension ∧
        (Tagged.split extension.content).1.map Tagged.tag = [group] := by
  rw [keyShareEntries_eq]
  cases last : lastKeyShares extensions with
  | none => simp [singleGroup]
  | some extension => simp [singleGroup_map_eq_some_iff]

/-- The server hello parser from the length of the extensions on. -/
def readServerExtensions (payload : Bytes) (cipherCode : UInt16) (pos : Nat) :
    Outcome String SessionConfig := do
  let extensionsLen ← index16 payload pos
  let pos := pos + 2
  let keyshare ←
    if payload.length < pos + extensionsLen.toNat then
      pure none
    else do
      let extensions ← slice payload pos (pos + extensionsLen.toNat)
      let keyShareEntries ← parseExtensions extensions
      pure (singleGroup keyShareEntries)
  pure ⟨[cipherCode], keyshare.getD 0⟩

/-- Up to the compression method nothing but the cipher suite is kept. -/
theorem parseServerHelloV3_before {payload tail : Bytes} {suite : UInt16}
    (before : ServerHelloBefore payload suite tail) (server : payload[5]? = some 0x02) :
    ∃ pos, payload.drop pos = tail ∧ payload.length = pos + tail.length ∧
      parseServerHelloV3 payload = readServerExtensions payload suite pos := by
  obtain ⟨front, sessionId, compression, length_front, short, split⟩ := before
  have total : payload.length = 47 + sessionId.length + tail.length := by
    simp [split, length_front]
    omega
  have atSessionId : payload.drop 43 = vector8 sessionId ++ (ofUInt16 suite ++
      (compression :: tail)) := by
    rw [split, ← length_front, List.drop_left]
  obtain ⟨sessionIdLen, read, number, atSuite⟩ := exists_number_of_drop short atSessionId
  have atCompression : payload.drop (44 + sessionId.length + 2) = [compression] ++ tail :=
    drop_add_of_drop _ atSuite
  have atTail : payload.drop (44 + sessionId.length + 2 + 1) = tail :=
    drop_add_of_drop _ atCompression
  refine ⟨44 + sessionId.length + 2 + 1, atTail, by omega, ?_⟩
  have type : index payload 5 = (.ok 0x02 : Outcome String UInt8) := by
    rw [index, server]
  have suiteBytes : slice payload (44 + sessionId.length) (44 + sessionId.length + 2) =
      (.ok (ofUInt16 suite) : Outcome String Bytes) := by
    rw [slice_of_drop atSuite (by simp [total]; omega) (by simp)]
    rfl
  have suiteCode : index16 (ofUInt16 suite) 0 = (.ok suite : Outcome String UInt16) :=
    index16_of_drop (by rw [List.drop_zero, List.append_nil])
  simp only [parseServerHelloV3, Nat.reduceAdd] at read ⊢
  rw [Outcome.rejectIf_of_not (by omega), Outcome.ok_bind, type, Outcome.ok_bind,
    Outcome.rejectIf_of_not (by decide), Outcome.ok_bind, read, Outcome.ok_bind, number,
    Outcome.rejectIf_of_not (by omega), Outcome.ok_bind]
  simp only [suiteBytes, suiteCode, Outcome.ok_bind]
  rfl

theorem parseServerHelloV3_upTo {payload rest : Bytes} {suite length : UInt16}
    (upTo : ServerHelloUpTo payload suite length rest) (server : payload[5]? = some 0x02) :
    parseServerHelloV3 payload =
      if rest.length < length.toNat then .ok ⟨[suite], 0⟩
      else (parseExtensions (rest.take length.toNat)).andThen fun entries =>
        .ok ⟨[suite], (singleGroup entries).getD 0⟩ := by
  obtain ⟨pos, atLength, total, parser⟩ :=
    parseServerHelloV3_before (serverHelloUpTo_iff.mp upTo) server
  have atExtensions : payload.drop (pos + 2) = rest := drop_add_of_drop _ atLength
  rw [List.length_append, length_ofUInt16] at total
  rw [parser, readServerExtensions, index16_of_drop atLength, Outcome.ok_bind]
  by_cases cut : rest.length < length.toNat
  · rw [if_pos cut, if_pos (by omega)]
    rfl
  · rw [if_neg cut, if_neg (by omega), slice_of_drop atExtensions (by omega) (by omega)]
    rfl

theorem exists_serverHelloBefore {payload : Bytes}
    (kept : ∀ error, parseServerHelloV3 payload ≠ .err error) :
    payload[5]? = some 0x02 ∧ ∃ suite tail, ServerHelloBefore payload suite tail := by
  generalize parsed : parseServerHelloV3 payload = outcome at kept
  simp only [parseServerHelloV3] at parsed
  rcases Outcome.rejectIf_bind_cases parsed with ⟨-, rfl⟩ | ⟨long, parsed⟩
  · exact absurd rfl (kept _)
  obtain ⟨handshakeType, readType⟩ := exists_index String payload 5 (by omega)
  rw [readType, Outcome.ok_bind] at parsed
  rcases Outcome.rejectIf_bind_cases parsed with ⟨-, rfl⟩ | ⟨server, parsed⟩
  · exact absurd rfl (kept _)
  obtain ⟨sessionIdLen, read⟩ := exists_index String payload 43 (by omega)
  simp only [Nat.reduceAdd] at parsed
  rw [read, Outcome.ok_bind] at parsed
  rcases Outcome.rejectIf_bind_cases parsed with ⟨-, rfl⟩ | ⟨enough, -⟩
  · exact absurd rfl (kept _)
  obtain ⟨front, length_front, atFront⟩ := exists_field payload 0 43 (by omega)
  obtain ⟨sessionId, short, atSessionId⟩ := exists_vector8 read
    (show 44 + sessionIdLen.toNat = _ by omega) (by omega)
  obtain ⟨suite, readSuite⟩ := exists_index16 String payload (44 + sessionIdLen.toNat) (by omega)
  obtain ⟨compression, readCompression⟩ :=
    exists_index String payload (44 + sessionIdLen.toNat + 2) (by omega)
  refine ⟨?_, suite, payload.drop (44 + sessionIdLen.toNat + 2 + 1),
    front, sessionId, compression, length_front, short, ?_⟩
  · rw [← List.head?_drop, drop_of_index readType, Decidable.not_not.mp server]
    rfl
  · rw [List.drop_zero] at atFront
    rw [← drop_of_index readCompression, ← drop_of_index16 readSuite, ← atSessionId, ← atFront]

/-- Behind the compression method the length of the extensions is read unseen. -/
theorem parseServerHelloV3_of_short {payload tail : Bytes} {suite : UInt16}
    (before : ServerHelloBefore payload suite tail) (server : payload[5]? = some 0x02)
    (short : tail.length < 2) : parseServerHelloV3 payload = .panic := by
  obtain ⟨pos, -, total, parser⟩ := parseServerHelloV3_before before server
  have outside : index16 payload pos = (.panic : Outcome String UInt16) :=
    index16_eq_panic_iff.mpr (by omega)
  rw [parser, readServerExtensions, outside, Outcome.panic_bind]

theorem exists_serverHelloUpTo {payload : Bytes} {result : SessionConfig}
    (parsed : parseServerHelloV3 payload = .ok result) :
    payload[5]? = some 0x02 ∧ ∃ suite length rest, ServerHelloUpTo payload suite length rest := by
  have kept (error : String) : parseServerHelloV3 payload ≠ .err error := by simp [parsed]
  obtain ⟨server, suite, tail, before⟩ := exists_serverHelloBefore kept
  by_cases short : tail.length < 2
  · rw [parseServerHelloV3_of_short before server short] at parsed
    cases parsed
  · obtain ⟨length, rest, rfl⟩ := exists_ofUInt16_append (Nat.le_of_not_lt short)
    exact ⟨server, suite, length, rest, serverHelloUpTo_iff.mpr before⟩

/-- What an accepted server hello is recorded with: the group it chooses, or zero. -/
theorem keyshare_of_parsed {payload : Bytes} {result : SessionConfig}
    (parsed : parseServerHelloV3 payload = .ok result) :
    (∃ group, Chooses payload group ∧ result.keyshare = group) ∨
      (∀ group, ¬Chooses payload group) ∧ result.keyshare = 0 := by
  obtain ⟨server, suite, length, rest, upTo⟩ := exists_serverHelloUpTo parsed
  rw [parseServerHelloV3_upTo upTo server] at parsed
  by_cases cut : rest.length < length.toNat
  · rw [if_pos cut, Outcome.ok.injEq] at parsed
    subst parsed
    exact .inr ⟨not_chooses_of_cut upTo cut, rfl⟩
  · -- All extensions are there, so the walk over them decides.
    have chooses_iff (group : UInt16) : Chooses payload group ↔
        singleGroup (keyShareEntries (Tagged.split (rest.take length.toNat)).1 []) =
          some group := by
      rw [singleGroup_keyShareEntries_iff, chooses_iff_of_complete upTo (Nat.le_of_not_lt cut)]
    rw [if_neg cut, parseExtensions, parseExtensionsFrom_eq, List.drop_zero] at parsed
    split at parsed
    · cases parsed
    · simp only [Outcome.andThen, Outcome.ok.injEq] at parsed
      subst parsed
      cases single : singleGroup (keyShareEntries (Tagged.split (rest.take length.toNat)).1 []) with
      | none => exact .inr ⟨fun group => by simp [chooses_iff, single], rfl⟩
      | some group => exact .inl ⟨group, (chooses_iff group).mpr single, rfl⟩

theorem ciphers_of_parsed {payload rest : Bytes} {result : SessionConfig} {suite length : UInt16}
    (parsed : parseServerHelloV3 payload = .ok result)
    (upTo : ServerHelloUpTo payload suite length rest) (server : payload[5]? = some 0x02) :
    result.ciphers = [suite] := by
  rw [parseServerHelloV3_upTo upTo server] at parsed
  split at parsed
  · cases parsed
    rfl
  · cases entries : parseExtensions (rest.take length.toNat) <;>
      simp only [entries, Outcome.andThen, Outcome.ok.injEq, reduceCtorEq] at parsed
    rw [← parsed]

theorem parseServerHelloV3_ne_err {payload rest : Bytes} {suite length : UInt16}
    (upTo : ServerHelloUpTo payload suite length rest) (server : payload[5]? = some 0x02)
    (error : String) : parseServerHelloV3 payload ≠ .err error := by
  rw [parseServerHelloV3_upTo upTo server, parseExtensions, parseExtensionsFrom_eq]
  split
  · simp
  · split <;> simp [Outcome.andThen]

/-! ## Client hellos -/

theorem readCipherSuites_eq_ok {data : Bytes} {count offset next : Nat} {suites : List UInt16}
    (read : readCipherSuites data count offset = .ok (suites, next)) :
    suites.length = count ∧ next = offset + 2 * count ∧
      data.drop offset = suites.flatMap ofUInt16 ++ data.drop next := by
  induction count generalizing offset suites with
  | zero =>
    cases read
    simp
  | succ count ih =>
    obtain ⟨cs, readSuite, read⟩ := Outcome.bind_eq_ok_iff.mp read
    obtain ⟨⟨more, last⟩, readMore, read⟩ := Outcome.bind_eq_ok_iff.mp read
    cases read
    obtain ⟨length, rfl, remaining⟩ := ih readMore
    refine ⟨by simp [length], by omega, ?_⟩
    rw [drop_of_index16 readSuite, remaining, List.flatMap_cons, List.append_assoc]

/-- What stands in an accepted client hello up to its extensions. -/
theorem exists_clientHelloUpTo {payload : Bytes} {head : HelloHead}
    (parsed : parseHelloHead payload = .ok head) :
    ∃ length, ClientHelloUpTo payload head.ciphers length (payload.drop head.offset) ∧
      length.toNat ≤ (payload.drop head.offset).length ∧
      head.extensionsEnd = head.offset + length.toNat := by
  simp only [parseHelloHead] at parsed
  obtain ⟨-, parsed⟩ := Outcome.rejectIf_bind_eq_ok_iff.mp parsed
  obtain ⟨long, parsed⟩ := Outcome.rejectIf_bind_eq_ok_iff.mp parsed
  obtain ⟨sessionIdLen, readSessionIdLen, parsed⟩ := Outcome.bind_eq_ok_iff.mp parsed
  obtain ⟨enough, parsed⟩ := Outcome.rejectIf_bind_eq_ok_iff.mp parsed
  obtain ⟨-, parsed⟩ := Outcome.rejectIf_bind_eq_ok_iff.mp parsed
  obtain ⟨count, readCount, parsed⟩ := Outcome.bind_eq_ok_iff.mp parsed
  obtain ⟨-, parsed⟩ := Outcome.rejectIf_bind_eq_ok_iff.mp parsed
  obtain ⟨⟨suites, offset⟩, readSuites, parsed⟩ := Outcome.bind_eq_ok_iff.mp parsed
  obtain ⟨-, parsed⟩ := Outcome.rejectIf_bind_eq_ok_iff.mp parsed
  obtain ⟨compLen, readCompLen, parsed⟩ := Outcome.bind_eq_ok_iff.mp parsed
  obtain ⟨room, parsed⟩ := Outcome.rejectIf_bind_eq_ok_iff.mp parsed
  obtain ⟨extensionsLen, readLength, parsed⟩ := Outcome.bind_eq_ok_iff.mp parsed
  obtain ⟨complete, parsed⟩ := Outcome.rejectIf_bind_eq_ok_iff.mp parsed
  cases parsed
  obtain ⟨length, rfl, atSuites⟩ := readCipherSuites_eq_ok readSuites
  simp only [Nat.reduceAdd] at *
  obtain ⟨front, length_front, atFront⟩ := exists_field payload 0 43 (by omega)
  obtain ⟨sessionId, shortId, atSessionId⟩ := exists_vector8 readSessionIdLen
    (show 44 + sessionIdLen.toNat = _ by omega) (by omega)
  obtain ⟨methods, shortMethods, atMethods⟩ := exists_vector8 readCompLen rfl (by omega)
  refine ⟨extensionsLen, ⟨front, sessionId, count, methods, length_front, shortId, shortMethods,
    length, ?_⟩, ?_, rfl⟩
  · rw [List.drop_zero] at atFront
    rw [← drop_of_index16 readLength, ← atMethods, ← atSuites, ← drop_of_index16 readCount,
      ← atSessionId, ← atFront]
  · rw [List.length_drop]
    omega

theorem extensionsEnd_le {payload : Bytes} {head : HelloHead}
    (parsed : parseHelloHead payload = .ok head) : head.extensionsEnd ≤ payload.length := by
  simp only [parseHelloHead, Outcome.bind_eq_ok_iff, Outcome.rejectIf_eq_ok_iff, exists_const,
    Outcome.pure_eq_ok, Outcome.ok.injEq, Prod.exists] at parsed
  obtain ⟨-, -, _, -, -, -, _, -, -, _, _, -, -, _, -, -, _, -, complete, rfl⟩ := parsed
  simpa using complete

theorem exists_block {payload : Bytes} {head : HelloHead}
    (parsed : parseHelloHead payload = .ok head) :
    ∃ block rest, head.offset ≤ payload.length ∧ payload.drop head.offset = block ++ rest ∧
      head.extensionsEnd = head.offset + block.length := by
  obtain ⟨length, -, complete, ends⟩ := exists_clientHelloUpTo parsed
  have inside := extensionsEnd_le parsed
  refine ⟨_, _, by omega, (List.take_append_drop length.toNat _).symm, ?_⟩
  rw [List.length_take_of_le complete, ends]

theorem offers_of_parsed {payload : Bytes} {result : CryptoConfig}
    (parsed : parseSslV3ClientHello payload = .ok result) :
    ∀ group ∈ result.keyshareGroups, Offers payload group := by
  obtain ⟨head, readHead, parsed⟩ := Outcome.bind_eq_ok_iff.mp parsed
  obtain ⟨groups, readGroups, parsed⟩ := Outcome.bind_eq_ok_iff.mp parsed
  cases parsed
  obtain ⟨length, upTo, complete, ends⟩ := exists_clientHelloUpTo readHead
  have split : payload.drop head.offset = (payload.drop head.offset).take length.toNat ++
      (payload.drop head.offset).drop length.toNat := (List.take_append_drop _ _).symm
  rw [readExtensions_eq_blockGroups split
    (by rw [List.length_take, Nat.min_eq_left complete]; exact ends)] at readGroups
  have walked := blockGroups_eq_ok readGroups
  intro group membership
  rw [walked, List.mem_flatMap] at membership
  obtain ⟨extension, inBlock, offered⟩ := membership
  unfold offeredGroups at offered
  split at offered
  · next keyShare =>
    obtain ⟨share, inShares, tag⟩ := List.mem_map.mp offered
    exact ⟨head.ciphers, length, _, upTo, complete, extension, inBlock, keyShare, share, inShares,
      tag⟩
  · simp at offered

end PqcUtils.Dump
