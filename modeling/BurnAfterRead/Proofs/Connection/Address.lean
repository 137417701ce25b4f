import BurnAfterRead.Connection.Address
import BurnAfterRead.Http.IpAddress

/-!
# Addresses that are written and cut again

An address is a host, with a port behind a colon or without one. It is cut at its last colon, so a host
with a port is always found again, whatever colons it has itself. Without a port that goes only for hosts
without colons: the last colon of an IPv6 address is one of its own, and what stands behind it is taken
for a port, which it cannot be because of the closing bracket.
-/

namespace BurnAfterRead

namespace Http.IpAddress

theorem colon_mem_of_cutDoubleColon {cs front back : List Char}
    (h : cutDoubleColon cs = some (front, back)) : ':' ∈ cs := by
  fun_induction cutDoubleColon cs generalizing front back with
  | case1 rest => exact List.mem_cons_self
  | case2 c rest hne ih =>
    obtain ⟨⟨first, second⟩, hp, -⟩ := Option.map_eq_some_iff.1 h
    exact List.mem_cons_of_mem c (ih hp)
  | case3 => cases h

/-- A text without colons is a single part, and that makes two groups at most. -/
theorem length_readGroups?_le {cs : List Char} {groups : List Nat} (hcolon : ':' ∉ cs)
    (h : readGroups? cs = some groups) : groups.length ≤ 2 := by
  unfold readGroups? at h
  split at h
  · obtain rfl := Option.some.inj h
    exact Nat.zero_le 2
  · rw [List.splitOn_eq_singleton hcolon] at h
    dsimp only [List.getLast?_singleton] at h
    split at h
    · simp only [List.dropLast_singleton, List.mapM_nil, Option.pure_def, Option.bind_eq_bind,
        Option.bind_some, Option.bind_eq_some_iff] at h
      obtain ⟨bytes, -, h⟩ := h
      split at h
      · obtain rfl := Option.some.inj h
        exact Nat.le_refl 2
      · cases h
    · obtain ⟨group, -, h⟩ := Option.bind_eq_some_iff.1 h
      obtain rfl := Option.some.inj h
      exact Nat.le_succ 1

theorem colon_mem_of_readV6? {cs : List Char} {groups : List Nat} (h : readV6? cs = some groups) :
    ':' ∈ cs := by
  unfold readV6? at h
  split at h
  · rename_i hcut
    exact colon_mem_of_cutDoubleColon hcut
  · refine Decidable.byContradiction fun hcolon => ?_
    obtain ⟨hread, hlength⟩ := Option.filter_eq_some_iff.1 h
    have := length_readGroups?_le hcolon hread
    have : groups.length = 8 := of_decide_eq_true hlength
    omega

end Http.IpAddress

namespace Connection

/-- A host that is a name, or any other text without colons. -/
structure IsName (host : String) : Prop where
  filled : host ≠ ""
  noColon : ':' ∉ host.toList

/-- A host that is an IPv6 address in brackets. -/
def IsLiteral (host : String) : Prop :=
  ∃ v groups, Http.IpAddress.readV6? v = some groups ∧ host.toList = '[' :: (v ++ [']'])

/-- A text that is no number of 16 bits. -/
def IsNoPort (port : String) : Prop := ∀ n ≤ Text.maxUInt16, ¬ Text.IsNumeral n port.toList

/-- What is told of an address whose port is none. -/
def portFault (address : String) : Failure :=
  .badConfiguration ("invalid port in address '" ++ address ++ "'")

theorem splitHostPort_of_noColon {address : String} (h : ':' ∉ address.toList) (defaultPort : Nat) :
    splitHostPort address defaultPort = .ok (address, defaultPort) := by
  unfold splitHostPort
  rw [Text.cutLast_eq_none h]

/-- An address is cut at its last colon, if anything stands before that. -/
theorem splitHostPort_append {host port : String} (hhost : host ≠ "") (hport : ':' ∉ port.toList)
    (defaultPort : Nat) :
    splitHostPort (host ++ ":" ++ port) defaultPort =
      match Text.readUpTo Text.maxUInt16 port.toList with
      | some n => .ok (host, n)
      | none => .error (portFault (host ++ ":" ++ port)) := by
  have haddress : (host ++ ":" ++ port).toList = host.toList ++ ':' :: port.toList := by
    simp [String.toList_append]
  unfold splitHostPort
  rw [haddress, Text.cutLast_append hport]
  cases hcs : host.toList with
  | nil => exact absurd (String.toList_eq_nil_iff.1 hcs) hhost
  | cons c cs =>
    dsimp only
    rw [← hcs, String.ofList_toList]
    rfl

theorem splitHostPort_of_isNoPort {host port : String} (hhost : host ≠ "") (hcolon : ':' ∉ port.toList)
    (hport : IsNoPort port) (defaultPort : Nat) :
    splitHostPort (host ++ ":" ++ port) defaultPort = .error (portFault (host ++ ":" ++ port)) := by
  have hnone : Text.readUpTo Text.maxUInt16 port.toList = none := by
    refine Option.eq_none_iff_forall_ne_some.2 fun n hn => ?_
    obtain ⟨hnumeral, hle⟩ := Text.readUpTo_eq_some_iff.1 hn
    exact hport n hle hnumeral
  rw [splitHostPort_append hhost hcolon, hnone]

theorem splitHostPort_of_port {host : String} (hhost : host ≠ "") {port : Nat}
    (hport : port ≤ Text.maxUInt16) (defaultPort : Nat) :
    splitHostPort (host ++ ":" ++ toString port) defaultPort = .ok (host, port) := by
  have hdecimal : (toString port).toList = Text.decimal port := by
    simp [Text.decimal, Nat.toString_eq_repr, Nat.repr]
  have hnumeral := Text.isNumeral_decimal port
  have hcolon : ':' ∉ (toString port).toList := by
    rw [hdecimal]
    exact fun h => absurd (hnumeral.isDigit_or_eq h) (by decide)
  rw [splitHostPort_append hhost hcolon, hdecimal, Text.readUpTo_eq_some_iff.2 ⟨hnumeral, hport⟩]

/-- Without a port, a literal is cut within: its last part and the bracket are no port. -/
theorem splitHostPort_of_isLiteral {host : String} (h : IsLiteral host) (defaultPort : Nat) :
    splitHostPort host defaultPort = .error (portFault host) := by
  obtain ⟨v, groups, hread, hhost⟩ := h
  obtain ⟨back, front, hrev, hback⟩ := List.eq_append_cons_of_mem
    (List.mem_reverse.2 (Http.IpAddress.colon_mem_of_readV6? hread))
  have hv : v = front.reverse ++ ':' :: back.reverse := by
    simpa using congrArg List.reverse hrev
  have hsplit : host =
      String.ofList ('[' :: front.reverse) ++ ":" ++ String.ofList (back.reverse ++ [']']) := by
    rw [← String.toList_inj, hhost, hv]
    simp
  rw [hsplit]
  refine splitHostPort_of_isNoPort (by simp) (by simpa using hback) (fun n _ hn => ?_) defaultPort
  exact absurd (hn.isDigit_or_eq (c := ']') (by simp)) (by decide)

theorem IsLiteral.ne_empty {host : String} (h : IsLiteral host) : host ≠ "" := by
  obtain ⟨v, -, -, hhost⟩ := h
  rintro rfl
  cases hhost

/-- A host, with a port or without: with a port, both are found again, whatever the host; behind the colon,
nothing else than a number of 16 bits is a port. Without one, a name is found again, with the default port,
but the address in a literal is cut itself, which leaves no port. -/
theorem written_addresses_split {host : String} (h : IsName host ∨ IsLiteral host) (defaultPort : Nat) :
    (IsName host → splitHostPort host defaultPort = .ok (host, defaultPort)) ∧
    (IsLiteral host → splitHostPort host defaultPort = .error (portFault host)) ∧
    (∀ port ≤ Text.maxUInt16,
      splitHostPort (host ++ ":" ++ toString port) defaultPort = .ok (host, port)) ∧
    ∀ port : String, ':' ∉ port.toList → IsNoPort port →
      splitHostPort (host ++ ":" ++ port) defaultPort = .error (portFault (host ++ ":" ++ port)) := by
  have hfilled : host ≠ "" := h.elim IsName.filled IsLiteral.ne_empty
  exact ⟨fun hname => splitHostPort_of_noColon hname.noColon defaultPort,
    fun hliteral => splitHostPort_of_isLiteral hliteral defaultPort,
    fun port hport => splitHostPort_of_port hfilled hport defaultPort,
    fun port hcolon hport => splitHostPort_of_isNoPort hfilled hcolon hport defaultPort⟩

/-- An IPv6 address with a port, without one, and with a number behind it that is too large for one. -/
theorem written_addresses_split_of_literal :
    IsLiteral "[2001:db8::1]" ∧
    splitHostPort "[2001:db8::1]:5433" 5432 = .ok ("[2001:db8::1]", 5433) ∧
    splitHostPort "[2001:db8::1]" 5432 = .error (portFault "[2001:db8::1]") ∧
    IsNoPort "65536" ∧
    splitHostPort "[2001:db8::1]:65536" 5432 = .error (portFault "[2001:db8::1]:65536") := by
  have hliteral : IsLiteral "[2001:db8::1]" :=
    ⟨"2001:db8::1".toList, [0x2001, 0xdb8, 0, 0, 0, 0, 0, 1], by decide +kernel, by decide⟩
  have hport : IsNoPort "65536" := by
    intro n hn hnumeral
    have hread := Text.readUpTo_eq_some_iff.2 ⟨hnumeral, hn⟩
    have htooLarge : Text.readUpTo Text.maxUInt16 "65536".toList = none := by decide +kernel
    rw [htooLarge] at hread
    cases hread
  obtain ⟨-, hbare, hwith, hfault⟩ := written_addresses_split (Or.inr hliteral) 5432
  exact ⟨hliteral, hwith 5433 (by decide), hbare hliteral, hport, hfault "65536" (by decide) hport⟩

/-- The loopback address is a host, and with its port it is found again. Without one it is refused, though
a host without a port has the default port. -/
theorem literal_without_port_refused :
    IsLiteral "[::1]" ∧ splitHostPort "[::1]:5432" 5432 = .ok ("[::1]", 5432) ∧
      splitHostPort "[::1]" 5432 = .error (portFault "[::1]") ∧
      splitHostPort "[::1]" 5432 ≠ .ok ("[::1]", 5432) := by
  have hliteral : IsLiteral "[::1]" :=
    ⟨"::1".toList, [0, 0, 0, 0, 0, 0, 0, 1], by decide +kernel, by decide⟩
  have hrefused := splitHostPort_of_isLiteral hliteral 5432
  have hfound : splitHostPort ("[::1]" ++ ":" ++ toString 5432) 5432 = .ok ("[::1]", 5432) :=
    splitHostPort_of_port (by decide) (by decide) 5432
  refine ⟨hliteral, hfound, hrefused, ?_⟩
  rw [hrefused]
  exact nofun

end Connection

end BurnAfterRead
