import BurnAfterRead.Http.Request

/-!
# Where a client's key comes from

Three headers may announce a client, and the connection has a peer. Each of these sources either can be
used or not, and what it says is told by the part of it in front of the first comma. The sources have an
order; the first one that can be used gives the key, and nothing else has any part in it: neither a later
source nor a later part of the same one, nor an earlier source that cannot be used.
-/

namespace BurnAfterRead.Http

/-- A parameter that names a client: `for`, in any letter case, before the first equals sign, and behind
it an address that is left when white space and then quotes are taken off. -/
inductive NamesClient : List Char → List Char → Prop where
  | intro (name value : List Char) (noEquals : '=' ∉ name)
      (named : Text.lower (Text.trim name) = ['f', 'o', 'r'])
      (filled : Text.trimMarks '"' (Text.trim value) ≠ []) :
      NamesClient (name ++ '=' :: value) (Text.trimMarks '"' (Text.trim value))

/-- Of the parameters of a hop, which semicolons divide, the first that names a client names this one. -/
def HopNames (hop address : List Char) : Prop :=
  ∃ before parameter after, hop.splitOn ';' = before ++ parameter :: after ∧
    NamesClient parameter address ∧ ∀ other ∈ before, ∀ client, ¬NamesClient other client

/-- Where the key of a client may come from. -/
inductive Source where
  | forwarded
  | forwardedFor
  | realIp
  | peer
  deriving DecidableEq, Repr

namespace Source

/-- The place of a source in the order in which they are asked. -/
def rank : Source → Nat
  | forwarded => 0
  | forwardedFor => 1
  | realIp => 2
  | peer => 3

/-- The header of a source; the address of the peer comes with the connection. -/
def header? : Source → Option String
  | forwarded => some "forwarded"
  | forwardedFor => some "x-forwarded-for"
  | realIp => some "x-real-ip"
  | peer => none

/-- The part of a source that counts: of a header that is there and is text, what stands before the first
comma, and of the peer its address. -/
def lead? (r : Request) (s : Source) : Option (List Char) :=
  match s.header? with
  | some name => (r.headers.text? name).map (Text.upTo ',')
  | none => r.peer.map IpAddress.text

/-- Which key the part that counts gives. -/
def Tells : Source → List Char → List Char → Prop
  | forwarded, hop, key => ∃ address, HopNames hop address ∧ key = stripPort address
  | forwardedFor, entry, key => Text.trim entry ≠ [] ∧ key = stripPort (Text.trim entry)
  | realIp, entry, key => Text.trim entry ≠ [] ∧ key = stripPort (Text.trim entry)
  | peer, address, key => key = address

/-- The source can be used, and gives this key. -/
def Gives (r : Request) (s : Source) (key : List Char) : Prop :=
  ∃ lead, s.lead? r = some lead ∧ s.Tells lead key

/-- The source can be used. -/
def IsUsable (r : Request) (s : Source) : Prop := ∃ key, s.Gives r key

end Source

theorem forParameter?_eq_some_iff {parameter address : List Char} :
    forParameter? parameter = some address ↔ NamesClient parameter address := by
  unfold forParameter?
  constructor
  · intro h
    obtain ⟨⟨name, value⟩, hcut, hnamed⟩ := Option.bind_eq_some_iff.1 h
    obtain ⟨noEquals, rfl⟩ := Text.cutFirst_eq_some_iff.1 hcut
    obtain ⟨named, hfilled⟩ := Option.ite_none_right_eq_some.1 hnamed
    obtain ⟨filled, hsame⟩ := Option.ite_none_left_eq_some.1 hfilled
    obtain rfl := Option.some.inj hsame
    exact .intro name value noEquals (beq_iff_eq.1 named) filled
  · rintro ⟨name, value, noEquals, named, filled⟩
    have hsame : Text.sameLetters (Text.trim name) ['f', 'o', 'r'] = true := beq_iff_eq.2 named
    rw [Text.cutFirst_append noEquals]
    exact (if_pos hsame).trans (if_neg filled)

theorem findSome?_forParameter?_eq_some_iff {hop address : List Char} :
    (hop.splitOn ';').findSome? forParameter? = some address ↔ HopNames hop address := by
  have hnone : ∀ parameter, forParameter? parameter = none ↔
      ∀ client, ¬NamesClient parameter client := by
    intro parameter
    rw [Option.eq_none_iff_forall_ne_some]
    exact forall_congr' fun client => not_congr forParameter?_eq_some_iff
  rw [List.findSome?_eq_some_iff]
  simp only [forParameter?_eq_some_iff, hnone]
  exact Iff.rfl

theorem forwardedFor?_eq_some_iff {r : Request} {address : List Char} :
    forwardedFor? r.headers = some address ↔
      ∃ hop, Source.forwarded.lead? r = some hop ∧ HopNames hop address := by
  unfold forwardedFor? Source.lead? Source.header?
  dsimp only
  cases r.headers.text? "forwarded" with
  | none => simp
  | some text =>
    rw [Option.map_some]
    exact findSome?_forParameter?_eq_some_iff.trans (by simp)

theorem firstEntry?_eq_some_iff {r : Request} {s : Source} {name : String} (hname : s.header? = some name)
    {address : List Char} :
    firstEntry? r.headers name = some address ↔
      ∃ entry, s.lead? r = some entry ∧ Text.trim entry ≠ [] ∧ address = Text.trim entry := by
  unfold firstEntry? Source.lead?
  rw [hname]
  dsimp only
  cases r.headers.text? name with
  | none => simp
  | some text =>
    rw [Option.map_some]
    constructor
    · intro h
      obtain ⟨filled, hsame⟩ := Option.ite_none_left_eq_some.1 h
      exact ⟨_, rfl, filled, (Option.some.inj hsame).symm⟩
    · rintro ⟨entry, hentry, filled, rfl⟩
      obtain rfl := Option.some.inj hentry
      exact if_neg filled

namespace Source

/-- What a source gives, as it is found out. -/
def key? (r : Request) : Source → Option (List Char)
  | forwarded => (forwardedFor? r.headers).map stripPort
  | forwardedFor => Option.map stripPort <| firstEntry? r.headers "x-forwarded-for"
  | realIp => Option.map stripPort <| firstEntry? r.headers "x-real-ip"
  | peer => r.peer.map IpAddress.text

theorem key?_eq_some_iff {r : Request} {s : Source} {key : List Char} :
    s.key? r = some key ↔ s.Gives r key := by
  unfold Gives
  cases s with
  | forwarded =>
    simp only [key?, Tells, Option.map_eq_some_iff, forwardedFor?_eq_some_iff]
    grind
  | forwardedFor =>
    simp only [key?, Tells, Option.map_eq_some_iff, firstEntry?_eq_some_iff (s := forwardedFor) rfl]
    grind
  | realIp =>
    simp only [key?, Tells, Option.map_eq_some_iff, firstEntry?_eq_some_iff (s := realIp) rfl]
    grind
  | peer => simp [key?, Tells, lead?, header?]

theorem key?_eq_none_iff {r : Request} {s : Source} : s.key? r = none ↔ ¬s.IsUsable r := by
  rw [Option.eq_none_iff_forall_ne_some, IsUsable, not_exists]
  exact forall_congr' fun key => not_congr key?_eq_some_iff

theorem gives_congr {r r' : Request} {s : Source} (h : s.lead? r' = s.lead? r) (key : List Char) :
    s.Gives r' key ↔ s.Gives r key := by
  unfold Gives
  rw [h]

theorem key?_congr {r r' : Request} {s : Source} (h : s.lead? r' = s.lead? r) :
    s.key? r' = s.key? r := by
  ext key
  exact key?_eq_some_iff.trans ((gives_congr h key).trans key?_eq_some_iff.symm)

end Source

/-- The headers without those of a name, whatever its letter case. -/
def Headers.without (headers : Headers) (name : String) : Headers :=
  headers.filter fun h => h.1.toLower != name

theorem Headers.get?_without (headers : Headers) {name other : String} :
    (headers.without other).get? name = if name = other then none else headers.get? name := by
  unfold without get?
  rw [List.find?_filter]
  by_cases h : name = other
  · subst h
    rw [if_pos rfl, List.find?_eq_none.2 fun x _ => by simp, Option.map_none]
  · rw [if_neg h]
    have hsame : (fun x : String × HeaderValue =>
        decide ((x.1.toLower != other) = true ∧ (x.1.toLower == name) = true)) =
          fun x => x.1.toLower == name := by
      funext x
      by_cases hx : x.1.toLower = name
      · simp [hx, h]
      · simp [hx]
    rw [hsame]

namespace Source

theorem header?_inj {s t : Source} (h : s.header? = t.header?) : s = t := by
  cases s <;> cases t <;> first | rfl | exact absurd h (by decide)

theorem lead?_congr {r : Request} {headers : Headers} {s : Source}
    (h : ∀ name, s.header? = some name → headers.get? name = r.headers.get? name) :
    s.lead? { r with headers := headers } = s.lead? r := by
  unfold lead? Headers.text?
  cases hname : s.header? with
  | none => rfl
  | some name =>
    dsimp only
    rw [h name hname]

theorem lead?_without (r : Request) (s : Source) (name : String) :
    s.lead? { r with headers := r.headers.without name } =
      if s.header? = some name then none else s.lead? r := by
  split
  · rename_i h
    unfold lead? Headers.text?
    rw [h]
    dsimp only
    rw [Headers.get?_without, if_pos rfl]
    rfl
  · rename_i h
    refine lead?_congr fun other hother => ?_
    rw [Headers.get?_without, if_neg fun hsame => h (hother.trans (congrArg some hsame))]

end Source

namespace Request

theorem clientKey_eq (r : Request) :
    r.clientKey = (((Source.forwarded.key? r).or ((Source.forwardedFor.key? r).or
      ((Source.realIp.key? r).or (Source.peer.key? r)))).map String.ofList).getD "unknown" := by
  unfold clientKey Http.clientKey announced? Source.key?
  cases forwardedFor? r.headers with
  | some address => rfl
  | none =>
    cases firstEntry? r.headers "x-forwarded-for" with
    | some address => rfl
    | none =>
      cases firstEntry? r.headers "x-real-ip" with
      | some address => rfl
      | none => cases r.peer <;> rfl

/-- The first source that can be used gives the key. -/
theorem clientKey_of_gives {r : Request} {s : Source} {key : List Char} (gives : s.Gives r key)
    (first : ∀ t : Source, t.rank < s.rank → ¬t.IsUsable r) : r.clientKey = String.ofList key := by
  have hkey := Source.key?_eq_some_iff.2 gives
  have hnone : ∀ t : Source, t.rank < s.rank → t.key? r = none := fun t ht =>
    Source.key?_eq_none_iff.2 (first t ht)
  rw [clientKey_eq]
  cases s with
  | forwarded =>
    rw [hkey]
    rfl
  | forwardedFor =>
    rw [hnone .forwarded (by decide), hkey]
    rfl
  | realIp =>
    rw [hnone .forwarded (by decide), hnone .forwardedFor (by decide), hkey]
    rfl
  | peer =>
    rw [hnone .forwarded (by decide), hnone .forwardedFor (by decide), hnone .realIp (by decide), hkey]
    rfl

theorem clientKey_of_not_isUsable {r : Request} (h : ∀ s : Source, ¬s.IsUsable r) :
    r.clientKey = "unknown" := by
  have hnone : ∀ s : Source, s.key? r = none := fun s => Source.key?_eq_none_iff.2 (h s)
  rw [clientKey_eq, hnone, hnone, hnone, hnone]
  rfl

theorem clientKey_congr {r r' : Request} (h : ∀ s : Source, s.key? r' = s.key? r) :
    r'.clientKey = r.clientKey := by
  rw [clientKey_eq, clientKey_eq, h, h, h, h]

/-- The key of a client comes from the first source that can be used. Whatever request has the same in the
part of that source that counts, and cannot use an earlier source either, has the same key: so nothing that
comes later in the header or in the order changes it. Without a source that can be used the client is
unknown. Other headers are not looked at, and a source that cannot be used may as well not be there. -/
theorem keyed_by_first_usable (r : Request) :
    (∀ (s : Source) (key : List Char), s.Gives r key →
      (∀ t : Source, t.rank < s.rank → ¬t.IsUsable r) →
      r.clientKey = String.ofList key ∧
        ∀ r' : Request, (∀ t : Source, t.rank < s.rank → ¬t.IsUsable r') →
          s.lead? r' = s.lead? r → r'.clientKey = r.clientKey) ∧
    ((∀ s : Source, ¬s.IsUsable r) → r.clientKey = "unknown") ∧
    (∀ headers : Headers, (∀ (s : Source) (name : String), s.header? = some name →
      headers.get? name = r.headers.get? name) →
        clientKey { r with headers := headers } = r.clientKey) ∧
    ∀ (s : Source) (name : String), s.header? = some name → ¬s.IsUsable r →
      clientKey { r with headers := r.headers.without name } = r.clientKey := by
  refine ⟨fun s key gives first => ?_, clientKey_of_not_isUsable, fun headers hsame => ?_,
    fun s name hname unusable => ?_⟩
  · have hkey := clientKey_of_gives gives first
    refine ⟨hkey, fun r' first' hlead => ?_⟩
    rw [hkey, clientKey_of_gives ((Source.gives_congr hlead key).2 gives) first']
  · exact clientKey_congr fun s => Source.key?_congr (Source.lead?_congr (hsame s))
  · refine clientKey_congr fun t => ?_
    by_cases ht : t.header? = some name
    · -- the source itself: its header is gone, and it gave nothing before
      obtain rfl := Source.header?_inj (ht.trans hname.symm)
      rw [Source.key?_eq_none_iff.2 unusable, Source.key?_eq_none_iff]
      rintro ⟨key, lead, hlead, -⟩
      rw [Source.lead?_without, if_pos ht] at hlead
      cases hlead
    · refine Source.key?_congr ?_
      rw [Source.lead?_without, if_neg ht]

/-- A first hop that names no one leaves the key to the next header, whose later entry does not matter, nor
what comes after it. -/
theorem keyed_by_first_usable_of_nameless_hop :
    let r : Request :=
      { method := .get, path := []
        headers :=
          [("Forwarded", Crypto.utf8 "proto=https;for=\"\", for=198.51.100.17"),
            ("X-Forwarded-For", Crypto.utf8 " 203.0.113.195:4711 , 70.41.3.18"),
            ("X-Real-IP", Crypto.utf8 "10.0.0.1")]
        peer := some (.v4 [127, 0, 0, 1]) }
    let r' : Request :=
      { method := .get, path := []
        headers :=
          [("forwarded", Crypto.utf8 "for=é"), ("x-forwarded-for", Crypto.utf8 " 203.0.113.195:4711 ")] }
    r.clientKey = "203.0.113.195" ∧ r'.clientKey = r.clientKey ∧
      clientKey { r with headers := r.headers.without "forwarded" } = r.clientKey ∧
      clientKey { r with headers := ("Via", Crypto.utf8 "1.1 proxy") :: r.headers } = r.clientKey ∧
      clientKey { r with headers := [], peer := none } = "unknown" := by
  intro r r'
  have unusable : ¬Source.forwarded.IsUsable r := Source.key?_eq_none_iff.1 (by decide +kernel)
  have unusable' : ¬Source.forwarded.IsUsable r' := Source.key?_eq_none_iff.1 (by decide +kernel)
  have gives : Source.forwardedFor.Gives r "203.0.113.195".toList :=
    Source.key?_eq_some_iff.1 (by decide +kernel)
  have earlier : ∀ t : Source, t.rank < Source.forwardedFor.rank → t = .forwarded := by
    intro t ht
    cases t <;> first | rfl | exact absurd ht (by decide)
  obtain ⟨first, -, others, gone⟩ := keyed_by_first_usable r
  obtain ⟨hkey, later⟩ := first .forwardedFor _ gives fun t ht => earlier t ht ▸ unusable
  refine ⟨hkey, later r' (fun t ht => earlier t ht ▸ unusable') (by decide +kernel),
    gone .forwarded "forwarded" rfl unusable, others _ fun s name hname => ?_,
    (keyed_by_first_usable _).2.1 fun s => Source.key?_eq_none_iff.1 ?_⟩
  · cases s with
    | peer => cases hname
    | _ =>
      obtain rfl := Option.some.inj hname
      decide +kernel
  · cases s <;> decide +kernel

end Request

end BurnAfterRead.Http
