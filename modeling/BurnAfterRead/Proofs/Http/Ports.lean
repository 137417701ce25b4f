import BurnAfterRead.Proofs.Http.Sources
import BurnAfterRead.Proofs.Text.Trim

/-!
# Addresses and their ports

A client connects from a new port each time, and proxies write its address in several ways. The key of a
client is the address alone: whichever way it is written, with the port or without, and whichever header
announces it, the key is the one that the client would have without a proxy.

A parameter in front of the client's may have a value in quotes, and the quotes mean nothing to the reader
of a hop. If a comma stands in the quotes, or a semicolon and then what looks like a client, the client
behind them is not looked at, and the key is not its address.
-/

namespace BurnAfterRead

namespace Text

theorem isAlpha_of_toLower {c : Char} (h : c.toLower.isAlpha = true) : c.isAlpha = true := by
  unfold Char.toLower at h
  split at h
  · rename_i hcapital
    simp only [UInt32.le_iff_toNat_le, ge_iff_le] at hcapital
    exact isAlpha_iff.2 (Or.inl hcapital)
  · exact h

theorem upTo_of_ends {sep : Char} {rest : List Char} (h : rest = [] ∨ ∃ more, rest = sep :: more) :
    upTo sep rest = [] := by
  obtain rfl | ⟨more, rfl⟩ := h
  · rfl
  · simp [upTo]

/-- What comes behind the first sign has no part in what stands before it. -/
theorem upTo_append_of_mem {sep : Char} {a : List Char} (h : sep ∈ a) (b : List Char) :
    upTo sep (a ++ b) = upTo sep a := by
  obtain ⟨front, back, rfl, hfront⟩ := List.eq_append_cons_of_mem h
  rw [List.append_assoc, List.cons_append, upTo_append hfront, upTo_append hfront,
    upTo_of_ends (Or.inr ⟨_, rfl⟩), upTo_of_ends (Or.inr ⟨_, rfl⟩)]

/-- A text that ends with the sign is divided off from what follows. -/
theorem exists_splitOn_front {sep : Char} {front : List Char}
    (h : front = [] ∨ ∃ parts, front = parts ++ [sep]) :
    ∃ before, front.splitOn sep = before ++ [[]] ∧
      ∀ rest : List Char, (front ++ rest).splitOn sep = before ++ rest.splitOn sep := by
  obtain rfl | ⟨parts, rfl⟩ := h
  · exact ⟨[], rfl, fun _ => rfl⟩
  · refine ⟨parts.splitOn sep, List.splitOn_append_cons_self parts [], fun rest => ?_⟩
    rw [List.append_assoc, List.singleton_append, List.splitOn_append_cons_self]

/-- A part at the front is the first one that is divided off. -/
theorem exists_splitOn_append {sep : Char} {part rest : List Char} (h : sep ∉ part)
    (ends : rest = [] ∨ ∃ more, rest = sep :: more) :
    ∃ others, (part ++ rest).splitOn sep = part :: others := by
  obtain rfl | ⟨more, rfl⟩ := ends
  · exact ⟨[], by rw [List.append_nil, List.splitOn_eq_singleton h]⟩
  · exact ⟨_, List.splitOn_append_cons_self_of_not_mem h more⟩

end Text

namespace Http

/-- A character of an address: visible, and no sign that headers are divided by. The colon is one. -/
def isAddressChar (c : Char) : Bool :=
  33 ≤ c.toNat && c.toNat ≤ 126 && c ∉ ['[', ']', '"', ',', ';']

/-- The text of a host's name or of an IPv4 address. -/
structure IsHost (cs : List Char) : Prop where
  filled : cs ≠ []
  plain : ∀ c ∈ cs, isAddressChar c = true
  noColon : ':' ∉ cs

/-- The text of an IPv6 address. -/
structure IsIpv6Text (cs : List Char) : Prop where
  plain : ∀ c ∈ cs, isAddressChar c = true
  colons : 2 ≤ cs.count ':'

/-- The ways to write an address. An IPv6 address has brackets if there is a port behind it. -/
inductive Spells : List Char → List Char → Prop where
  | host {a : List Char} (host : IsHost a) : Spells a a
  | hostPort {a port : List Char} (host : IsHost a) (digits : ∀ c ∈ port, c.isDigit = true) :
      Spells a (a ++ ':' :: port)
  | bare {v : List Char} (ip : IsIpv6Text v) : Spells v v
  | bracketed {v : List Char} (ip : IsIpv6Text v) : Spells v ('[' :: (v ++ [']']))
  | bracketedPort {v port : List Char} (ip : IsIpv6Text v) (digits : ∀ c ∈ port, c.isDigit = true) :
      Spells v ('[' :: (v ++ ']' :: ':' :: port))

/-- The texts of a source's header that announce a client by this spelling. In a list of addresses it is
the first one. In a list of hops it is the first one's, behind `for=` in any letter case, in quotes or not;
other parameters of the hop may come before it, which is `front`, and after it. A comma ends a hop and a
semicolon a parameter. White space may stand around each part. -/
inductive Carries (front spelling : List Char) : Source → List Char → Prop where
  | hop {left name right inner quotes outer rest : List Char}
      (apart : front = [] ∨ ∃ parts, front = parts ++ [';'])
      (named : Text.lower name = ['f', 'o', 'r'])
      (quoted : quotes = [] ∨ quotes = ['"'])
      (blank : ∀ c ∈ left ++ right ++ inner ++ outer, Text.isBlank c = true)
      (ends : rest = [] ∨ ∃ more, rest = ';' :: more ∨ rest = ',' :: more) :
      Carries front spelling .forwarded
        (front ++ (left ++ name ++ right ++ '=' :: (inner ++ (quotes ++ spelling ++ quotes) ++ outer)) ++
          rest)
  | entry {s : Source} {left right rest : List Char} (alone : front = [])
      (listed : s = .forwardedFor ∨ s = .realIp) (blank : ∀ c ∈ left ++ right, Text.isBlank c = true)
      (ends : rest = [] ∨ ∃ more, rest = ',' :: more) :
      Carries front spelling s (left ++ spelling ++ right ++ rest)

/-- The reader of a hop goes past a text: there is no comma in it, and nothing between its semicolons
names a client. Quotes make no difference to that. -/
structure PassedOver (front : List Char) : Prop where
  noComma : ',' ∉ front
  nameless : ∀ part ∈ front.splitOn ';', ∀ client, ¬NamesClient part client

theorem isAddressChar_iff {c : Char} :
    isAddressChar c = true ↔
      33 ≤ c.toNat ∧ c.toNat ≤ 126 ∧ c ≠ '[' ∧ c ≠ ']' ∧ c ≠ '"' ∧ c ≠ ',' ∧ c ≠ ';' := by
  simp [isAddressChar, and_assoc]

theorem isBlank_of_visible {c : Char} (hlow : 33 ≤ c.toNat) (hhigh : c.toNat ≤ 126) :
    Text.isBlank c = false := by
  simp only [Text.isBlank, Bool.or_eq_false_iff, Bool.and_eq_false_iff, decide_eq_false_iff_not,
    beq_eq_false_iff_ne, ne_eq]
  omega

/-- A character that is no white space and divides neither hops nor parameters, and is no quote. -/
def IsSolid (c : Char) : Prop := Text.isBlank c = false ∧ c ≠ '"' ∧ c ≠ ',' ∧ c ≠ ';'

theorem isSolid_of_isAddressChar {c : Char} (h : isAddressChar c = true) : IsSolid c := by
  obtain ⟨hlow, hhigh, -, -, hquote, hcomma, hsemicolon⟩ := isAddressChar_iff.1 h
  exact ⟨isBlank_of_visible hlow hhigh, hquote, hcomma, hsemicolon⟩

theorem isSolid_of_isDigit {c : Char} (h : c.isDigit = true) : IsSolid c := by
  refine ⟨Text.isBlank_of_isDigit h, ?_, ?_, ?_⟩ <;> rintro rfl <;> exact absurd h (by decide)

theorem isSolid_of_isAlpha {c : Char} (h : c.isAlpha = true) : IsSolid c := by
  refine ⟨Text.isBlank_of_isAlphanum (by simp [Char.isAlphanum, h]), ?_, ?_, ?_⟩ <;> rintro rfl <;>
    exact absurd h (by decide)

namespace Spells

theorem ne_nil {address spelling : List Char} (h : Spells address spelling) : spelling ≠ [] := by
  cases h with
  | host host => exact host.filled
  | hostPort => simp
  | bare ip =>
    rintro rfl
    exact absurd ip.colons (by decide)
  | bracketed => simp
  | bracketedPort => simp

theorem isSolid {address spelling : List Char} (h : Spells address spelling) {c : Char}
    (hc : c ∈ spelling) : IsSolid c := by
  have hcolon : IsSolid ':' := ⟨by decide, by decide, by decide, by decide⟩
  have hopen : IsSolid '[' := ⟨by decide, by decide, by decide, by decide⟩
  have hclose : IsSolid ']' := ⟨by decide, by decide, by decide, by decide⟩
  cases h with
  | host host => exact isSolid_of_isAddressChar (host.plain c hc)
  | hostPort host digits =>
    simp only [List.mem_append, List.mem_cons] at hc
    obtain hc | rfl | hc := hc
    · exact isSolid_of_isAddressChar (host.plain c hc)
    · exact hcolon
    · exact isSolid_of_isDigit (digits c hc)
  | bare ip => exact isSolid_of_isAddressChar (ip.plain c hc)
  | bracketed ip =>
    simp only [List.mem_append, List.mem_cons, List.not_mem_nil, or_false] at hc
    obtain rfl | hc | rfl := hc
    · exact hopen
    · exact isSolid_of_isAddressChar (ip.plain c hc)
    · exact hclose
  | bracketedPort ip digits =>
    simp only [List.mem_append, List.mem_cons] at hc
    obtain rfl | hc | rfl | rfl | hc := hc
    · exact hopen
    · exact isSolid_of_isAddressChar (ip.plain c hc)
    · exact hclose
    · exact hcolon
    · exact isSolid_of_isDigit (digits c hc)

end Spells

theorem stripPort_of_head? {cs : List Char} (h : cs.head? ≠ some '[') :
    stripPort cs =
      match Text.cutFirst ':' cs with
      | some (host, port) => if port.contains ':' then cs else host
      | none => cs := by
  unfold stripPort
  dsimp only
  split
  · exact absurd rfl h
  · rfl

theorem stripPort_bracketed {v : List Char} (h : ']' ∉ v) (rest : List Char) :
    stripPort ('[' :: (v ++ ']' :: rest)) = v := by
  simp only [stripPort, Text.cutFirst_append h]

theorem head?_ne_bracket {cs : List Char} (h : ∀ c ∈ cs, isAddressChar c = true) :
    cs.head? ≠ some '[' := by
  intro hhead
  exact absurd (h '[' (List.mem_of_mem_head? hhead)) (by decide)

/-- Whichever way an address is written, it is what is left without the port. -/
theorem Spells.stripPort_eq {address spelling : List Char} (h : Spells address spelling) :
    stripPort spelling = address := by
  have noClosing : ∀ {v : List Char}, IsIpv6Text v → ']' ∉ v := fun ip hclose =>
    absurd (ip.plain _ hclose) (by decide)
  cases h with
  | host host =>
    rw [stripPort_of_head? (head?_ne_bracket host.plain), Text.cutFirst_eq_none host.noColon]
  | @hostPort port host digits =>
    have hport : port.contains ':' = false := by
      rw [Bool.eq_false_iff, ne_eq, List.contains_iff_mem]
      exact fun hcolon => absurd (digits ':' hcolon) (by decide)
    have hhead : (address ++ ':' :: port).head? ≠ some '[' := by
      have hfirst := head?_ne_bracket host.plain
      cases address with
      | nil => exact absurd rfl host.filled
      | cons c cs => exact hfirst
    rw [stripPort_of_head? hhead, Text.cutFirst_append host.noColon]
    simp only [hport, Bool.false_eq_true, if_false]
  | bare ip =>
    -- a second colon stands behind the first one, so that none of them divides off a port
    have hcolon : ':' ∈ address := List.count_pos_iff.1 (Nat.lt_of_lt_of_le (by decide) ip.colons)
    obtain ⟨front, back, rfl, hfront⟩ := List.eq_append_cons_of_mem hcolon
    have hback : back.contains ':' = true := by
      have hcount := ip.colons
      rw [List.count_append, List.count_eq_zero.2 hfront, List.count_cons_self] at hcount
      exact List.contains_iff_mem.2 (List.count_pos_iff.1 (by omega))
    rw [stripPort_of_head? (head?_ne_bracket ip.plain), Text.cutFirst_append hfront]
    simp only [hback, if_true]
  | bracketed ip => exact stripPort_bracketed (noClosing ip) []
  | bracketedPort ip => exact stripPort_bracketed (noClosing ip) _

theorem isAlpha_of_mem_for {name : List Char} (h : Text.lower name = ['f', 'o', 'r']) {c : Char}
    (hc : c ∈ name) : c.isAlpha = true := by
  have hlower : c.toLower ∈ Text.lower name := List.mem_map_of_mem hc
  rw [h] at hlower
  have hletters : ∀ x ∈ ['f', 'o', 'r'], x.isAlpha = true := List.all_eq_true.1 (by decide)
  exact Text.isAlpha_of_toLower (hletters _ hlower)

/-- A parameter that is written around a spelling names it. -/
theorem namesClient_of_spelling {left name right inner quotes spelling outer : List Char}
    (named : Text.lower name = ['f', 'o', 'r']) (quoted : quotes = [] ∨ quotes = ['"'])
    (blank : ∀ c ∈ left ++ right ++ inner ++ outer, Text.isBlank c = true) (filled : spelling ≠ [])
    (solid : ∀ c ∈ spelling, IsSolid c) :
    NamesClient (left ++ name ++ right ++ '=' :: (inner ++ (quotes ++ spelling ++ quotes) ++ outer))
      spelling := by
  simp only [List.mem_append, or_imp, forall_and] at blank
  obtain ⟨⟨⟨hleft, hright⟩, hinner⟩, houter⟩ := blank
  have hname : ∀ c ∈ name, IsSolid c := fun c hc => isSolid_of_isAlpha (isAlpha_of_mem_for named hc)
  have hquotes : ∀ c ∈ quotes, c = '"' := by
    obtain rfl | rfl := quoted <;> simp
  have hvalue : ∀ c ∈ quotes ++ spelling ++ quotes, Text.isBlank c = false := by
    have hquote : ∀ c ∈ quotes, Text.isBlank c = false := fun c hc => hquotes c hc ▸ by decide
    simp only [List.mem_append, or_imp, forall_and]
    exact ⟨⟨hquote, fun c hc => (solid c hc).1⟩, hquote⟩
  have htrim : Text.trim (inner ++ (quotes ++ spelling ++ quotes) ++ outer) =
      quotes ++ spelling ++ quotes := Text.trim_append hinner hvalue houter
  have hmarks : Text.trimMarks '"' (quotes ++ spelling ++ quotes) = spelling :=
    Text.trimMarks_append hquotes (fun h => (solid _ h).2.1 rfl) hquotes
  have noEquals : '=' ∉ left ++ name ++ right := by
    simp only [List.mem_append, not_or]
    refine ⟨⟨fun h => absurd (hleft _ h) (by decide), fun h => ?_⟩,
      fun h => absurd (hright _ h) (by decide)⟩
    exact absurd (isAlpha_of_mem_for named h) (by decide)
  have hparameter := NamesClient.intro (left ++ name ++ right)
    (inner ++ (quotes ++ spelling ++ quotes) ++ outer) noEquals
    (by rw [Text.trim_append hleft (fun c hc => (hname c hc).1) hright, named])
    (by rw [htrim, hmarks]; exact filled)
  rw [htrim, hmarks] at hparameter
  exact hparameter

/-- A sign that is none of those which a parameter is written with is not in it. -/
theorem not_mem_parameter (sign : Char) {left name right inner quotes spelling outer : List Char}
    (named : Text.lower name = ['f', 'o', 'r']) (quoted : quotes = [] ∨ quotes = ['"'])
    (blank : ∀ c ∈ left ++ right ++ inner ++ outer, Text.isBlank c = true)
    (hblank : Text.isBlank sign = false) (hletter : sign.isAlpha = false) (hequals : sign ≠ '=')
    (hquote : sign ≠ '"') (hspelling : sign ∉ spelling) :
    sign ∉ left ++ name ++ right ++ '=' :: (inner ++ (quotes ++ spelling ++ quotes) ++ outer) := by
  have hgap : ∀ gap : List Char, (∀ c ∈ gap, Text.isBlank c = true) → sign ∉ gap := by
    intro gap hgap hmem
    rw [hgap sign hmem] at hblank
    cases hblank
  have hname : sign ∉ name := by
    intro hmem
    rw [isAlpha_of_mem_for named hmem] at hletter
    cases hletter
  have hquotes : sign ∉ quotes := by
    obtain rfl | rfl := quoted <;> simp [hquote]
  simp only [List.mem_append, or_imp, forall_and] at blank
  obtain ⟨⟨⟨hleft, hright⟩, hinner⟩, houter⟩ := blank
  simp only [List.mem_append, List.mem_cons, not_or]
  exact ⟨⟨⟨hgap _ hleft, hname⟩, hgap _ hright⟩, hequals, ⟨hgap _ hinner, ⟨hquotes, hspelling⟩, hquotes⟩,
    hgap _ houter⟩

theorem not_namesClient_nil (client : List Char) : ¬NamesClient [] client := by
  intro h
  rw [← forParameter?_eq_some_iff] at h
  cases h

theorem PassedOver.nil : PassedOver [] := by
  refine ⟨by simp, fun part hpart client => ?_⟩
  rw [List.splitOn_nil, List.mem_singleton] at hpart
  rw [hpart]
  exact not_namesClient_nil client

/-- Where the reader of a hop does not go past a text, what follows the text has no say. -/
theorem exists_told_of_not_passedOver {front : List Char}
    (apart : front = [] ∨ ∃ parts, front = parts ++ [';']) (stopped : ¬PassedOver front) :
    ∃ told, ∀ tail, ((Text.upTo ',' (front ++ tail)).splitOn ';').findSome? forParameter? = told := by
  by_cases hcomma : ',' ∈ front
  · exact ⟨_, fun tail => by rw [Text.upTo_append_of_mem hcomma]⟩
  · obtain ⟨before, hbefore, hsplit⟩ := Text.exists_splitOn_front apart
    -- The client that is named in front is the first one, whoever comes after it.
    have hnamed : (before.findSome? forParameter?).isSome = true := by
      by_contra hnone
      rw [List.findSome?_isSome_iff] at hnone
      refine stopped ⟨hcomma, fun part hpart client hclient => ?_⟩
      rw [hbefore, List.mem_append, List.mem_singleton] at hpart
      obtain hpart | rfl := hpart
      · exact hnone ⟨part, hpart, by rw [forParameter?_eq_some_iff.2 hclient]; rfl⟩
      · exact not_namesClient_nil client hclient
    obtain ⟨address, haddress⟩ := Option.isSome_iff_exists.1 hnamed
    refine ⟨some address, fun tail => ?_⟩
    rw [Text.upTo_append hcomma, hsplit, List.findSome?_append, haddress, Option.some_or]

theorem forwardedFor?_of_text {headers : Headers} {text : List Char}
    (h : headers.text? "forwarded" = some text) :
    forwardedFor? headers = ((Text.upTo ',' text).splitOn ';').findSome? forParameter? := by
  unfold forwardedFor?
  rw [h]
  rfl

namespace Carries

/-- The part that counts of a text that announces a client gives the client's address as the key. -/
theorem tells {address front spelling text : List Char} {s : Source} (h : Carries front spelling s text)
    (spells : Spells address spelling) (passed : PassedOver front) :
    s.Tells (Text.upTo ',' text) address := by
  have solid : ∀ c ∈ spelling, IsSolid c := fun c => spells.isSolid
  cases h with
  | @hop left name right inner quotes outer rest apart named quoted blank ends =>
    have hparameter := namesClient_of_spelling named quoted blank spells.ne_nil solid
    have hcomma := not_mem_parameter ',' named quoted blank (by decide) (by decide) (by decide)
      (by decide) fun hc => (solid _ hc).2.2.1 rfl
    have hsemicolon := not_mem_parameter ';' named quoted blank (by decide) (by decide) (by decide)
      (by decide) fun hc => (solid _ hc).2.2.2 rfl
    generalize left ++ name ++ right ++ '=' :: (inner ++ (quotes ++ spelling ++ quotes) ++ outer) =
      parameter at hparameter hcomma hsemicolon
    have hfront : ',' ∉ front ++ parameter := by
      rw [List.mem_append, not_or]
      exact ⟨passed.noComma, hcomma⟩
    have hends : Text.upTo ',' rest = [] ∨ ∃ more, Text.upTo ',' rest = ';' :: more := by
      obtain rfl | ⟨more, rfl | rfl⟩ := ends
      · exact Or.inl rfl
      · exact Or.inr ⟨Text.upTo ',' more, rfl⟩
      · exact Or.inl rfl
    obtain ⟨before, hbefore, hsplit⟩ := Text.exists_splitOn_front apart
    obtain ⟨after, hafter⟩ := Text.exists_splitOn_append hsemicolon hends
    rw [Text.upTo_append hfront, List.append_assoc]
    refine ⟨spelling, ⟨before, parameter, after, ?_, hparameter, fun other hother => ?_⟩,
      spells.stripPort_eq.symm⟩
    · rw [hsplit, hafter]
    · exact passed.nameless other (hbefore ▸ List.mem_append_left _ hother)
  | @entry _ left right rest alone listed blank ends =>
    simp only [List.mem_append, or_imp, forall_and] at blank
    have hentry : Text.trim (Text.upTo ',' (left ++ spelling ++ right ++ rest)) = spelling := by
      have hcomma : ',' ∉ left ++ spelling ++ right := by
        simp only [List.mem_append, not_or]
        exact ⟨⟨fun h => absurd (blank.1 _ h) (by decide), fun h => (solid _ h).2.2.1 rfl⟩,
          fun h => absurd (blank.2 _ h) (by decide)⟩
      rw [Text.upTo_append hcomma, Text.upTo_of_ends ends, List.append_nil,
        Text.trim_append blank.1 (fun c hc => (solid c hc).1) blank.2]
    obtain rfl | rfl := listed
    · exact ⟨hentry.symm ▸ spells.ne_nil, by rw [hentry, spells.stripPort_eq]⟩
    · exact ⟨hentry.symm ▸ spells.ne_nil, by rw [hentry, spells.stripPort_eq]⟩

end Carries

namespace Request

/-- Whichever header announces a client, and however its address is written there, the key is the address
without the port. It is the key that a client with this address has who comes without a proxy. This takes
a reader who goes past what stands in front of the client; otherwise the key is the same whatever stands
there in place of the client. -/
theorem port_unseen (r : Request) {address front spelling text : List Char} {s : Source} {name : String}
    (spells : Spells address spelling) (carries : Carries front spelling s text)
    (hname : s.header? = some name) (hheader : r.headers.text? name = some text) :
    (PassedOver front → (∀ t : Source, t.rank < s.rank → ¬t.IsUsable r) →
      r.clientKey = String.ofList address ∧
        ∀ (direct : Request) (ip : IpAddress), direct.peer = some ip → ip.text = address →
          (∀ t : Source, t ≠ .peer → ¬t.IsUsable direct) → direct.clientKey = r.clientKey) ∧
    (¬PassedOver front → ∀ (r' : Request) (tail : List Char),
      r'.headers.text? name = some (front ++ tail) →
      (∀ t : Source, t ≠ s → t.lead? r' = t.lead? r) → r'.clientKey = r.clientKey) := by
  refine ⟨fun passed first => ?_, fun stopped r' tail htail others => ?_⟩
  · have hlead : s.lead? r = some (Text.upTo ',' text) := by
      unfold Source.lead?
      rw [hname]
      dsimp only
      rw [hheader]
      rfl
    have hkey := clientKey_of_gives ⟨_, hlead, carries.tells spells passed⟩ first
    refine ⟨hkey, fun direct ip hpeer hip hdirect => ?_⟩
    have hlead' : Source.peer.lead? direct = some address := by
      unfold Source.lead? Source.header?
      dsimp only
      rw [hpeer, Option.map_some, hip]
    rw [hkey]
    refine clientKey_of_gives ⟨address, hlead', rfl⟩ fun t ht => hdirect t ?_
    rintro rfl
    exact Nat.lt_irrefl _ ht
  · cases carries with
    | entry alone => exact absurd (alone ▸ PassedOver.nil) stopped
    | hop apart =>
      obtain rfl := Option.some.inj hname
      obtain ⟨told, htold⟩ := exists_told_of_not_passedOver apart stopped
      rw [List.append_assoc] at hheader
      refine clientKey_congr fun t => ?_
      by_cases ht : t = .forwarded
      · subst ht
        simp only [Source.key?]
        rw [forwardedFor?_of_text hheader, forwardedFor?_of_text htail, htold, htold]
      · exact Source.key?_congr (others t ht)

/-- A client behind a proxy that tells its port is the client that comes by itself. -/
theorem port_unseen_of_brackets :
    let r : Request :=
      { method := .get, path := []
        headers := [("Forwarded",
          Crypto.utf8 "ext=\"a;b\"; FOR=\"[2001:db8::17]:4711\";by=10.0.0.1, for=10.0.0.2")] }
    let direct : Request :=
      { method := .get, path := [], peer := some (.v6 [0x2001, 0xdb8, 0, 0, 0, 0, 0, 0x17]) }
    r.clientKey = "2001:db8::17" ∧ direct.clientKey = r.clientKey := by
  intro r direct
  have ip : IsIpv6Text "2001:db8::17".toList := ⟨List.all_eq_true.1 (by decide), by decide⟩
  have spells : Spells _ ('[' :: ("2001:db8::17".toList ++ ']' :: ':' :: "4711".toList)) :=
    .bracketedPort ip (List.all_eq_true.1 (by decide))
  have nameless : ∀ part ∈ "ext=\"a;b\";".toList.splitOn ';', forParameter? part = none := by decide
  have passed : PassedOver "ext=\"a;b\";".toList := by
    refine ⟨by decide, fun part hpart client h => ?_⟩
    cases (nameless part hpart).symm.trans (forParameter?_eq_some_iff.2 h)
  have carries : Carries "ext=\"a;b\";".toList ('[' :: ("2001:db8::17".toList ++ ']' :: ':' :: "4711".toList))
      .forwarded
      ("ext=\"a;b\";".toList ++
        ([' '] ++ "FOR".toList ++ [] ++ '=' ::
          ([] ++ (['"'] ++ '[' :: ("2001:db8::17".toList ++ ']' :: ':' :: "4711".toList) ++ ['"']) ++ [])) ++
        ";by=10.0.0.1, for=10.0.0.2".toList) :=
    .hop (Or.inr ⟨"ext=\"a;b\"".toList, rfl⟩) rfl (Or.inr rfl) (List.all_eq_true.1 (by decide))
      (Or.inr ⟨_, Or.inl rfl⟩)
  obtain ⟨hkey, hdirect⟩ := (r.port_unseen spells carries rfl (by decide +kernel)).1 passed fun t ht =>
    absurd ht (Nat.not_lt_zero _)
  refine ⟨hkey, hdirect direct _ rfl (by decide +kernel) fun t ht => Source.key?_eq_none_iff.1 ?_⟩
  cases t with
  | peer => exact absurd rfl ht
  | _ => decide +kernel

/-- A semicolon in quotes, and behind it what looks like a client, in front of the client. -/
theorem key_of_quoted_client :
    let r : Request :=
      { method := .get, path := []
        headers := [("Forwarded", Crypto.utf8 "ext=\"a;for=evil\";for=192.0.2.1")] }
    (∃ text, r.headers.text? "forwarded" = some text ∧
      Carries "ext=\"a;for=evil\";".toList "192.0.2.1".toList .forwarded text) ∧
    Spells "192.0.2.1".toList "192.0.2.1".toList ∧ r.clientKey = "evil" := by
  intro r
  have carries : Carries "ext=\"a;for=evil\";".toList "192.0.2.1".toList .forwarded
      ("ext=\"a;for=evil\";".toList ++
        ([] ++ "for".toList ++ [] ++ '=' :: ([] ++ ([] ++ "192.0.2.1".toList ++ []) ++ [])) ++ []) :=
    .hop (Or.inr ⟨"ext=\"a;for=evil\"".toList, rfl⟩) rfl (Or.inl rfl) (by simp) (Or.inl rfl)
  have host : IsHost "192.0.2.1".toList := ⟨by decide, List.all_eq_true.1 (by decide), by decide⟩
  exact ⟨⟨_, by decide +kernel, carries⟩, .host host, by decide +kernel⟩

end Request

end Http

end BurnAfterRead
