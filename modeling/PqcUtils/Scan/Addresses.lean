import PqcUtils.Net.Literals
import PqcUtils.Net.RoundTrip
import PqcUtils.Scan.Target

/-!
# Hosts as targets

The last colon of a target is taken for the one in front of the port. A host with
a port behind it is read as such, in brackets if it is an IPv6 address. A host
alone is read as such only if it has no colon of its own.
-/

namespace PqcUtils.Scan

open Net Text

/-- The texts that name a host: a name without colons, an IPv4 address, or an IPv6 address, which
may stand in brackets. -/
inductive Host where
  | name (text : String) (noColon : ':' ∉ text.toList)
  | ipv4 (text : String) (ip : Ipv4Addr) (reads : readIpv4Addr text.toList = some (ip, []))
  | ipv6 (text : String) (ip : Ipv6Addr) (reads : readIpv6Addr text.toList = some (ip, []))
    (inBrackets : Bool)

namespace Host

def bare : Host → String
  | name text _ => text
  | ipv4 text _ _ => text
  | ipv6 text _ _ _ => text

def beforePort : Host → String
  | name text _ => text
  | ipv4 text _ _ => text
  | ipv6 text _ _ _ => "[" ++ text ++ "]"

def alone (host : Host) : String :=
  match host with
  | ipv6 _ _ _ false => host.bare
  | _ => host.beforePort

def isIpv6 : Host → Bool
  | ipv6 .. => true
  | _ => false

/-- The text names the host, with or without brackets. -/
def Named (host : Host) (text : String) : Prop := text = host.bare ∨ text = host.beforePort

end Host

/-- The host alone is read with the default port, the host and a port as these, and what is read is
read again from its printed form. -/
structure ParsesHost (host : Host) (port defaultPort : UInt16) : Prop where
  alone : ∃ target, parseSingleTarget host.alone (some defaultPort) = .ok target ∧
    host.Named target.host ∧ target.port = defaultPort
  withPort : ∀ default, ∃ target,
    parseSingleTarget (host.beforePort ++ ":" ++ toString port.toNat) default = .ok target ∧
      host.Named target.host ∧ target.port = port
  display : ∀ target,
    (parseSingleTarget host.alone (some defaultPort) = .ok target ∨
      ∃ default, parseSingleTarget (host.beforePort ++ ":" ++ toString port.toNat) default =
        .ok target) →
    ∀ default, parseSingleTarget target.display default = .ok target

theorem parseSingleTarget_withPort (host : String) (port : UInt16) (default : Option UInt16) :
    parseSingleTarget (host ++ ":" ++ toString port.toNat) default = .ok ⟨host, port⟩ := by
  have split : rsplitOnce ':' (host ++ ":" ++ toString port.toNat) =
      some (host, toString port.toNat) := by
    apply rsplitOnce_of_split (by simp)
    intro membership
    have among : ':' ∈ Nat.toDigits 10 port.toNat := by simpa using membership
    have digit := Nat.isDigit_of_mem_toDigits (by decide) (by decide) among
    simp [Char.isDigit] at digit
  simp only [parseSingleTarget, split, parseUnsigned_toString port.toNat_lt, UInt16.ofNat_toNat]

theorem parseSingleTarget_display (target : Target) (default : Option UInt16) :
    parseSingleTarget target.display default = .ok target :=
  parseSingleTarget_withPort target.host target.port default

theorem parseSingleTarget_of_noColon {text : String} (noColon : ':' ∉ text.toList)
    (defaultPort : UInt16) :
    parseSingleTarget text (some defaultPort) = .ok ⟨text, defaultPort⟩ := by
  have whole : rsplitOnce ':' text = none := by
    cases split : rsplitOnce ':' text with
    | none => rfl
    | some parts =>
      obtain ⟨before, behind⟩ := parts
      obtain ⟨same, -⟩ := split_of_rsplitOnce split
      simp [same] at noColon
  rw [parseSingleTarget, whole]

/-- Where there is a colon, a port is read behind the last one, and the host is in front of it. -/
theorem split_of_parseSingleTarget {text : String} (colon : ':' ∈ text.toList)
    {default : Option UInt16} {target : Target}
    (parsed : parseSingleTarget text default = .ok target) :
    ∃ port, text.toList = target.host.toList ++ ':' :: port ∧
      ∀ c ∈ port, c = '+' ∨ toDigit 10 c ≠ none := by
  cases split : rsplitOnce ':' text with
  | none => exact absurd colon (not_mem_of_rsplitOnce split)
  | some parts =>
    obtain ⟨host, port⟩ := parts
    obtain ⟨text, -⟩ := split_of_rsplitOnce split
    cases number : parseUnsigned 16 port with
    | none => simp [parseSingleTarget, split, number] at parsed
    | some value =>
      simp only [parseSingleTarget, split, number, Except.ok.injEq] at parsed
      subst parsed
      exact ⟨port.toList, text, digits_of_parseUnsigned number⟩

/-- In brackets and without a port an IPv6 address is no target: the bracket is no digit. -/
theorem parseSingleTarget_brackets {text : String} (colon : ':' ∈ text.toList)
    {default : Option UInt16} {target : Target} :
    parseSingleTarget ("[" ++ text ++ "]") default ≠ .ok target := by
  intro parsed
  obtain ⟨port, split, digits⟩ := split_of_parseSingleTarget (by simp [colon]) parsed
  have ends : ("[" ++ text ++ "]").toList.getLast? = some ']' := by
    rw [String.toList_append]
    exact List.getLast?_concat
  have behind : (':' :: port).getLast? = some ']' := by
    rw [split, List.getLast?_append_of_ne_nil _ (List.cons_ne_nil ':' port)] at ends
    exact ends
  -- The last character is not the colon, so it is one of the port.
  rcases List.mem_cons.mp (List.mem_of_getLast? behind) with colon | bracket
  · cases colon
  · have digit := digits ']' bracket
    simp [toDigit] at digit

/-- Without brackets a part of an IPv6 address is taken for the port. -/
theorem length_host_lt {text : String} (colon : ':' ∈ text.toList)
    {default : Option UInt16} {target : Target}
    (parsed : parseSingleTarget text default = .ok target) :
    target.host.length < text.length := by
  obtain ⟨port, split, -⟩ := split_of_parseSingleTarget colon parsed
  have lengths := congrArg List.length split
  rw [List.length_append, List.length_cons, String.length_toList, String.length_toList] at lengths
  omega

theorem not_parsesHost_ipv6 {text : String} {ip : Ipv6Addr}
    (reads : readIpv6Addr text.toList = some (ip, [])) (inBrackets : Bool)
    (port defaultPort : UInt16) :
    ¬ParsesHost (.ipv6 text ip reads inBrackets) port defaultPort := by
  rintro ⟨⟨target, parsed, named, -⟩, -, -⟩
  have colon := colon_mem_of_readIpv6Addr reads
  cases inBrackets with
  | true => exact parseSingleTarget_brackets colon parsed
  | false =>
    have shorter : target.host.length < text.length := length_host_lt colon parsed
    have longer : text.length ≤ ("[" ++ text ++ "]").length := by
      rw [String.length_append, String.length_append]
      omega
    rcases named with same | same <;> rw [same] at shorter
    · exact Nat.lt_irrefl _ shorter
    · exact Nat.not_lt_of_le longer shorter

/-- The forms with a port and the printed ones are always read; a host alone is if it is no IPv6
address. -/
theorem parsesHost_iff (host : Host) (port defaultPort : UInt16) :
    ParsesHost host port defaultPort ↔ host.isIpv6 = false := by
  constructor
  · intro parses
    cases host with
    | name text noColon => rfl
    | ipv4 text ip reads => rfl
    | ipv6 text ip reads inBrackets =>
      exact absurd parses (not_parsesHost_ipv6 reads inBrackets port defaultPort)
  · intro notIpv6
    have withPort (default : Option UInt16) :
        parseSingleTarget (host.beforePort ++ ":" ++ toString port.toNat) default =
          .ok ⟨host.beforePort, port⟩ := parseSingleTarget_withPort _ port default
    refine ⟨?_, fun default => ⟨_, withPort default, .inr rfl, rfl⟩,
      fun target _ => parseSingleTarget_display target⟩
    cases host with
    | name text noColon =>
      exact ⟨_, parseSingleTarget_of_noColon noColon defaultPort, .inl rfl, rfl⟩
    | ipv4 text ip reads =>
      have noColon := colon_notMem_of_readIpv4Addr reads
      exact ⟨_, parseSingleTarget_of_noColon noColon defaultPort, .inl rfl, rfl⟩
    | ipv6 text ip reads inBrackets => cases notIpv6

theorem length_loopback : ([0, 0, 0, 0, 0, 0, 0, 1] : List UInt16).length = 8 := rfl

def loopback : Ipv6Addr := ⟨[0, 0, 0, 0, 0, 0, 0, 1], length_loopback⟩

/-- The loopback address is read as another host with another port, or not at all. -/
theorem loopback_not_parsed :
    parseSingleTarget "::1" (some 443) = .ok ⟨":", 1⟩ ∧
      parseSingleTarget "[::1]" (some 443) =
        .error "Invalid port. Value not in range [0-65535]." ∧
      ∃ reads : readIpv6Addr "::1".toList = some (loopback, []), ∀ inBrackets,
        ¬ParsesHost (.ipv6 "::1" loopback reads inBrackets) 443 443 := by
  refine ⟨by decide +kernel, by decide +kernel, by decide +kernel, fun inBrackets => ?_⟩
  exact not_parsesHost_ipv6 _ inBrackets 443 443

end PqcUtils.Scan
