import PqcUtils.Dump.Ssh

/-!
# The parser of the dump tool accepts the wire format

`parse_ssh_kexinit` skips five bytes, then reads a key exchange message, and does
not look at what is behind it. It never reads out of range.
-/

namespace PqcUtils.Dump

open Bytes Text Wire

theorem readNameListOwned_eq (data : Bytes) :
    readNameListOwned data =
      .ofOption () ((takeText data).map fun taken => (splitOn ',' taken.1, taken.2)) := by
  match data with
  | [] | [_] | [_, _] | [_, _, _] =>
    simp [readNameListOwned, readU32, takeText, takeLength, Outcome.rejectIf]
  | a :: b :: c :: d :: rest =>
    have number : readU32 (a :: b :: c :: d :: rest) = .ok (be32 a b c d, rest) := by
      have start : (4 : Nat) ≤ (a :: b :: c :: d :: rest).length := by simp
      rw [readU32, Outcome.rejectIf_of_not (by simp), slice_to_end start]
      rfl
    simp only [readNameListOwned, number, Outcome.ok_bind, takeText, takeLength,
      Option.bind_eq_bind, Option.bind_some]
    by_cases short : rest.length < (be32 a b c d).toNat
    · simp [Outcome.rejectIf, short]
    · rw [Outcome.rejectIf_of_not short, if_neg short, Outcome.ok_bind,
        slice_from_start (Nat.le_of_not_lt short), slice_to_end (Nat.le_of_not_lt short),
        Outcome.ok_bind, Outcome.ok_bind]
      cases fromUtf8 (rest.take (be32 a b c d).toNat) <;> rfl

theorem skipNameLists_eq (count : Nat) (data : Bytes) :
    skipNameLists count data = .ofOption () ((takeTexts count data).map Prod.snd) := by
  induction count generalizing data with
  | zero => rfl
  | succ count ih =>
    simp only [skipNameLists, readNameListOwned_eq, takeTexts]
    cases takeText data with
    | none => rfl
    | some taken =>
      simp only [Option.map_some, Outcome.ofOption_some, Outcome.ok_bind, ih, Option.bind_eq_bind,
        Option.bind_some]
      cases takeTexts count taken.2 <;> rfl

/-- The message behind the first five bytes, read text by text. -/
theorem parseSshKexinit_eq {header cookie : Bytes} (headerLength : header.length = 5)
    (cookieLength : cookie.length = 16) (rest : Bytes) :
    parseSshKexinit (header ++ sshMsgKexinit :: (cookie ++ rest)) =
      .ofOption () ((takeTexts 10 rest).bind fun taken =>
        taken.1.head?.map fun names => ⟨splitOn ',' names⟩) := by
  have number : index (header ++ sshMsgKexinit :: (cookie ++ rest)) 5 =
      (.ok sshMsgKexinit : Outcome Unit UInt8) :=
    index_of_drop (cookie ++ rest) (by rw [← headerLength, List.drop_left])
  have body : (header ++ sshMsgKexinit :: (cookie ++ rest)).drop 6 = cookie ++ rest := by
    rw [show 6 = header.length + 1 by omega, ← List.drop_drop, List.drop_left]
    rfl
  have behind : (cookie ++ rest).drop 16 = rest := by rw [← cookieLength, List.drop_left]
  rw [parseSshKexinit, Outcome.rejectIf_of_not (by simp; omega), number, slice_to_end
    (by simp; omega), body]
  simp only [Outcome.ok_bind]
  rw [Outcome.rejectIf_of_not (by simp), Outcome.rejectIf_of_not (by simp; omega),
    slice_to_end (by simp; omega), behind]
  simp only [Outcome.ok_bind, readNameListOwned_eq, skipNameLists_eq]
  rw [show takeTexts 10 rest = (takeText rest).bind fun taken =>
    (takeTexts 9 taken.2).bind fun more => some (taken.1 :: more.1, more.2) from rfl]
  cases takeText rest with
  | none => rfl
  | some taken =>
    simp only [Option.map_some, Outcome.ofOption_some, Outcome.ok_bind, Option.bind_some]
    cases takeTexts 9 taken.2 <;> rfl

theorem parseSshKexinit_cases (payload : Bytes) :
    parseSshKexinit payload = .err () ∨
      ∃ header cookie rest, header.length = 5 ∧ cookie.length = 16 ∧
        payload = header ++ sshMsgKexinit :: (cookie ++ rest) := by
  by_cases short : payload.length < 6
  · exact .inl (by rw [parseSshKexinit, Outcome.rejectIf_of short]; rfl)
  obtain ⟨header, number, body, headerLength, rfl⟩ :
      ∃ header number body, header.length = 5 ∧ payload = header ++ number :: body := by
    have split := List.take_append_drop 5 payload
    cases behind : payload.drop 5 with
    | nil =>
      have := congrArg List.length behind
      simp at this
      omega
    | cons number body =>
      exact ⟨payload.take 5, number, body, by simp; omega, by rw [← behind, split]⟩
  have found : index (header ++ number :: body) 5 = (.ok number : Outcome Unit UInt8) :=
    index_of_drop body (by rw [← headerLength, List.drop_left])
  have behind : (header ++ number :: body).drop 6 = body := by
    rw [show 6 = header.length + 1 by omega, ← List.drop_drop, List.drop_left]
    rfl
  by_cases other : number ≠ sshMsgKexinit
  · left
    rw [parseSshKexinit, Outcome.rejectIf_of_not short, found]
    simp only [Outcome.ok_bind]
    rw [Outcome.rejectIf_of other]
    rfl
  · by_cases noCookie : body.length < 16
    · left
      rw [parseSshKexinit, Outcome.rejectIf_of_not short, found, slice_to_end (by omega), behind]
      simp only [Outcome.ok_bind]
      rw [Outcome.rejectIf_of_not other, Outcome.rejectIf_of noCookie]
      rfl
    · right
      refine ⟨header, body.take 16, body.drop 16, headerLength, by simp; omega, ?_⟩
      rw [List.take_append_drop, not_not.mp other]

theorem parseSshKexinit_ne_panic (payload : Bytes) : parseSshKexinit payload ≠ .panic := by
  rcases parseSshKexinit_cases payload with rejected | ⟨header, cookie, rest, h, c, rfl⟩
  · simp [rejected]
  · rw [parseSshKexinit_eq h c]
    exact Outcome.ofOption_ne_panic _ _

theorem parseSshKexinit_eq_ok_iff {payload : Bytes} {kex : KexInit} :
    parseSshKexinit payload = .ok kex ↔
      ∃ (header : Bytes) (message : Kexinit) (rest : Bytes), header.length = 5 ∧
        payload = header ++ message.encode ++ rest ∧ kex = ⟨message.kexAlgorithms⟩ := by
  constructor
  · intro accepted
    rcases parseSshKexinit_cases payload with rejected | ⟨header, cookie, texts, h, c, rfl⟩
    · simp [rejected] at accepted
    · rw [parseSshKexinit_eq h c, Outcome.ofOption_eq_ok_iff, Option.bind_eq_some_iff] at accepted
      obtain ⟨⟨names, rest⟩, taken, first⟩ := accepted
      obtain ⟨length, fits, rfl⟩ := takeTexts_eq_some_iff.mp taken
      cases names with
      | nil => simp at length
      | cons kexNames otherNames =>
        simp only [List.head?_cons, Option.map_some, Option.some.injEq] at first
        refine ⟨header, ⟨cookie, kexNames, otherNames, c, by simpa using length, fits⟩, rest, h,
          ?_, first.symm⟩
        simp [Kexinit.encode, sshMsgKexinit]
  · rintro ⟨header, message, rest, h, rfl, rfl⟩
    have taken :
        takeTexts 10 ((message.kexNames :: message.otherNames).flatMap encodeText ++ rest) =
          some (message.kexNames :: message.otherNames, rest) :=
      takeTexts_eq_some_iff.mpr ⟨by simp [message.length_otherNames], message.fits, rfl⟩
    have read := parseSshKexinit_eq h message.length_cookie
      ((message.kexNames :: message.otherNames).flatMap encodeText ++ rest)
    rw [taken] at read
    simpa [Kexinit.encode, sshMsgKexinit, Kexinit.kexAlgorithms] using read

/-- What the parser makes of a payload: it reads nothing out of range, accepts what starts with a
message behind five bytes, and takes nothing from what stands behind the message. -/
structure ParsesKexinit (payload : Bytes) : Prop where
  inRange : parseSshKexinit payload ≠ .panic
  accepts_iff : ∀ kex, parseSshKexinit payload = .ok kex ↔
    ∃ (header : Bytes) (message : Kexinit) (rest : Bytes), header.length = 5 ∧
      payload = header ++ message.encode ++ rest ∧ kex.kexAlgorithms = message.kexAlgorithms
  stable : ∀ kex, parseSshKexinit payload = .ok kex →
    ∀ more, parseSshKexinit (payload ++ more) = .ok kex

theorem parsesKexinit (payload : Bytes) : ParsesKexinit payload where
  inRange := parseSshKexinit_ne_panic payload
  accepts_iff kex := by
    rw [parseSshKexinit_eq_ok_iff]
    cases kex with
    | mk names => simp only [KexInit.mk.injEq]
  stable kex accepted more := by
    obtain ⟨header, message, rest, h, rfl, rfl⟩ := parseSshKexinit_eq_ok_iff.mp accepted
    apply parseSshKexinit_eq_ok_iff.mpr
    exact ⟨header, message, rest ++ more, h, List.append_assoc _ rest more, rfl⟩

end PqcUtils.Dump
