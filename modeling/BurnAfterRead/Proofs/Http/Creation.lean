import BurnAfterRead.Proofs.Http.Deferral
import BurnAfterRead.Proofs.Http.ErrorReport
import BurnAfterRead.Proofs.Http.Redemption
import BurnAfterRead.Proofs.Service.InMemory

/-!
# Which secrets are stored

What a body asks for is stored if its value is neither empty nor too long, and if its lifetime is one
that a client may ask for and ends within the calendar. Then the response tells the record's identifier
and expiry, and nothing else. In all other cases the request is refused, and nothing is stored.
-/

namespace BurnAfterRead

namespace Http

namespace SecretRequest

/-- How long a secret is to live: as its body says, for a positive time of at most 365 days, or else, if
the body says nothing, for the default time. -/
inductive Lasts (default : Span) (body : SecretRequest) : Span → Prop where
  | unsaid (h : body.ttl = none ∨ body.ttl = some "") : Lasts default body default
  | said {text : String} {life : Span} (h : body.ttl = some text) (ne : text ≠ "")
      (read : Span.parse text = .ok life) (positive : 0 < life.nanos)
      (short : life.nanos ≤ 365 * 24 * 3600 * 1000000000) : Lasts default body life

/-- The body asks for a secret of that value, which is to expire at `t` if it is stored at `now`. -/
structure AsksFor (default : Span) (now : Instant) (body : SecretRequest) (value : String) (t : Instant) :
    Prop where
  holds : body.value = some value
  size : 1 ≤ value.length ∧ value.length ≤ 5000
  expiry : ∃ life, body.Lasts default life ∧ now.plus? life = some t

theorem readTtl_eq_ok_iff {text : String} {life : Span} :
    readTtl text = .ok life ↔ Span.parse text = .ok life ∧ 0 < life.nanos ∧
      life.nanos ≤ 365 * 24 * 3600 * 1000000000 := by
  have hmax : maxTtl.nanos = 365 * 24 * 3600 * 1000000000 := rfl
  unfold readTtl
  rw [hmax]
  cases Span.parse text with
  | error f => simp
  | ok ttl =>
    rw [Except.ok.injEq]
    dsimp only
    constructor
    · intro h
      split at h
      · cases h
      split at h
      · cases h
      obtain rfl := Except.ok.inj h
      exact ⟨rfl, by omega, by omega⟩
    · rintro ⟨rfl, hpositive, hshort⟩
      rw [if_neg (by omega), if_neg (by omega)]

theorem filled?_eq_none_iff {field : Option String} :
    filled? field = none ↔ field = none ∨ field = some "" := by
  cases field <;> simp [filled?]

theorem filled?_eq_some_iff {field : Option String} {text : String} :
    filled? field = some text ↔ field = some text ∧ text ≠ "" := by
  unfold filled?
  rw [Option.filter_eq_some_iff, decide_eq_true_iff]

/-- The lifetime of what a body asks for, with the default put in. -/
theorem lasts_iff {default life : Span} {body : SecretRequest} :
    body.Lasts default life ↔ ∃ ttl, body.lifetime = .ok ttl ∧ ttl.getD default = life := by
  unfold lifetime
  constructor
  · intro h
    cases h with
    | unsaid h =>
      rw [filled?_eq_none_iff.2 h]
      exact ⟨none, rfl, rfl⟩
    | said h ne read positive short =>
      rw [filled?_eq_some_iff.2 ⟨h, ne⟩]
      dsimp only
      rw [readTtl_eq_ok_iff.2 ⟨read, positive, short⟩]
      exact ⟨some life, rfl, rfl⟩
  · rintro ⟨ttl, hlifetime, rfl⟩
    cases htext : filled? body.ttl with
    | none =>
      rw [htext] at hlifetime
      obtain rfl := Except.ok.inj hlifetime
      exact .unsaid (filled?_eq_none_iff.1 htext)
    | some text =>
      rw [htext] at hlifetime
      dsimp only at hlifetime
      obtain ⟨h, ne⟩ := filled?_eq_some_iff.1 htext
      cases hread : readTtl text with
      | error f =>
        rw [hread] at hlifetime
        cases hlifetime
      | ok life =>
        rw [hread] at hlifetime
        obtain rfl := Except.ok.inj hlifetime
        obtain ⟨read, positive, short⟩ := readTtl_eq_ok_iff.1 hread
        exact .said h ne read positive short

theorem toSecret_eq_ok_iff {body : SecretRequest} {wanted : Secret} :
    body.toSecret = .ok wanted ↔ ∃ value ttl, filled? body.value = some value ∧ body.lifetime = .ok ttl ∧
      wanted = { value := value, passphrase := filled? body.passphrase, ttl := ttl } := by
  unfold toSecret
  constructor
  · intro h
    split at h
    · cases h
    rename_i value hvalue
    cases hlifetime : body.lifetime with
    | error f =>
      rw [hlifetime] at h
      cases h
    | ok ttl =>
      rw [hlifetime] at h
      exact ⟨value, ttl, hvalue, rfl, (Except.ok.inj h).symm⟩
  · rintro ⟨value, ttl, hvalue, hlifetime, rfl⟩
    rw [hvalue, hlifetime]
    rfl

/-- What a body asks for is what the service accepts. -/
theorem asksFor_iff {s : Service} {now t : Instant} {body : SecretRequest} {value : String} :
    body.AsksFor s.defaultTtl now value t ↔
      ∃ wanted, body.toSecret = .ok wanted ∧ wanted.value = value ∧ s.accept wanted now = .ok t := by
  constructor
  · rintro ⟨hvalue, ⟨hpositive, hshort⟩, life, hlasts, hexpiry⟩
    obtain ⟨ttl, hlifetime, rfl⟩ := lasts_iff.1 hlasts
    have hne : value ≠ "" := by
      rintro rfl
      exact absurd hpositive (by decide)
    have hfilled := filled?_eq_some_iff.2 ⟨hvalue, hne⟩
    refine ⟨_, toSecret_eq_ok_iff.2 ⟨value, ttl, hfilled, hlifetime, rfl⟩, rfl, ?_⟩
    rw [Service.accept, Service.checkValue_eq_ok_iff.2 ⟨hne, hshort⟩]
    simp only [Except.bind, Service.expiry, Service.expiryAfter, hexpiry]
  · rintro ⟨wanted, hwanted, rfl, haccept⟩
    obtain ⟨value, ttl, hfilled, hlifetime, rfl⟩ := toSecret_eq_ok_iff.1 hwanted
    obtain ⟨hcheck, hexpiry⟩ := Service.accept_eq_ok_iff.1 haccept
    obtain ⟨hne, hshort⟩ := Service.checkValue_eq_ok_iff.1 hcheck
    have hpositive : 1 ≤ value.length :=
      Nat.one_le_iff_ne_zero.2 fun h => hne (String.length_eq_zero_iff.1 h)
    refine ⟨(filled?_eq_some_iff.1 hfilled).1, ⟨hpositive, hshort⟩, _,
      lasts_iff.2 ⟨ttl, hlifetime, rfl⟩, ?_⟩
    unfold Service.expiry Service.expiryAfter at hexpiry
    dsimp only at hexpiry
    split at hexpiry
    · rename_i u hu
      rw [hu, Except.ok.inj hexpiry]
    · cases hexpiry

end SecretRequest

/-- An empty passphrase counts as none. -/
theorem keyFor_filled? (s : Service) (passphrase : Option String) :
    s.keyFor (SecretRequest.filled? passphrase) = s.keyFor passphrase := by
  cases passphrase with
  | none => rfl
  | some p =>
    by_cases hp : p = ""
    · subst hp
      rfl
    · rw [SecretRequest.filled?_of_ne hp]

namespace Site

variable {α : Type} [TokenNumber α] {s : Service} {steady : Int} {now : Instant} {draws : Draws}
  {r : Request} {body : SecretRequest} {m : Memory}

/-- What is planned for a creation whose body can be read, where no limiter stands in the way. -/
theorem plan_unlimited_post (hmethod : r.method = .post) (hpath : r.path = "/secrets".toList)
    (hbody : SecretRequest.ofRequest r = .ok body) :
    (⟨s, none⟩ : Site α).plan steady draws r =
      match body.toSecret with
      | .error f => .error (.ofFailure f)
      | .ok wanted => .ok (.create draws.chance wanted) := by
  have hroute : Route.ofPath? r.path = some .secrets := by rw [hpath]; decide
  have hadmits : (⟨s, none⟩ : Site α).Admits steady r := fun _ _ => rfl
  rw [plan_of_admits hadmits hroute, hmethod]
  cases hwanted : body.toSecret <;>
    simp only [Route.action?, Option.elim_some, Action.plan, hbody, hwanted, Except.bind]

/-- A request that asks for a secret is answered with its identifier and expiry, and it is stored. -/
theorem respond_of_asksFor (hmethod : r.method = .post) (hpath : r.path = "/secrets".toList)
    (hbody : SecretRequest.ofRequest r = .ok body) {value : String} {t : Instant}
    (hasks : body.AsksFor s.defaultTtl now value t) :
    ∃ x : Record, x.id = draws.chance.identifier ∧ x.expiresAt = t ∧
      Crypto.decrypt x.value (s.keyFor body.passphrase) = .ok (Crypto.utf8 value) ∧
      (⟨s, none⟩ : Site α).respond Memory.store steady now draws r m =
        (r.dress draws (.created x.id t), m.insert x) := by
  obtain ⟨wanted, hwanted, rfl, haccept⟩ := SecretRequest.asksFor_iff.1 hasks
  obtain ⟨-, token, htoken, hrun⟩ := Service.run_create_of_accept Memory.store draws.chance m haccept
  obtain ⟨-, hkey⟩ := SecretRequest.toSecret_eq_ok hwanted
  rw [hkey, keyFor_filled?] at htoken
  refine ⟨Draft.record ⟨token, t, draws.chance.random⟩, rfl, rfl, Crypto.decrypt_encrypt htoken, ?_⟩
  rw [respond_eq, plan_unlimited_post hmethod hpath hbody, hwanted]
  simp only [carryOut, Service.perform_create, hrun]
  rfl

/-- A request that asks for no secret that can be stored is refused. -/
theorem respond_of_not_asksFor (hmethod : r.method = .post) (hpath : r.path = "/secrets".toList)
    (hbody : SecretRequest.ofRequest r = .ok body)
    (hasks : ∀ value t, ¬body.AsksFor s.defaultTtl now value t) :
    ∃ reason, (⟨s, none⟩ : Site α).respond Memory.store steady now draws r m =
      (r.dress draws (.ofFailure (.invalidRequest reason)), m) := by
  rw [respond_eq, plan_unlimited_post hmethod hpath hbody]
  cases hwanted : body.toSecret with
  | error f =>
    obtain ⟨reason, rfl⟩ := SecretRequest.toSecret_error hwanted
    exact ⟨reason, rfl⟩
  | ok wanted =>
    cases haccept : s.accept wanted now with
    | ok t => exact absurd (SecretRequest.asksFor_iff.2 ⟨wanted, hwanted, rfl, haccept⟩) (hasks _ t)
    | error f =>
      obtain ⟨reason, rfl⟩ := Service.accept_error haccept
      refine ⟨reason, ?_⟩
      simp only [carryOut, Service.perform_create,
        Service.run_create_of_accept_error Memory.store draws.chance m haccept]
      rfl

variable (s steady now draws m) in
/-- Whatever is in memory already: a creation whose body is a record of optional texts is answered 201
exactly if it asks for a secret that can be stored, and then it is stored, and its identifier and expiry
are told. Else it is answered 400. -/
theorem created_iff_asksFor (hmethod : r.method = .post) (hpath : r.path = "/secrets".toList)
    (hbody : SecretRequest.ofRequest r = .ok body) :
    let answer := (⟨s, none⟩ : Site α).respond Memory.store steady now draws r m
    (answer.1.status = 201 ↔ ∃ value t, body.AsksFor s.defaultTtl now value t) ∧
      (∀ value t, body.AsksFor s.defaultTtl now value t →
        answer.1.body = String.ofList (Json.writeObject
            [("id", .text draws.chance.identifier), ("expiresAt", .text t.text)]) ∧
          ∃ x : Record, x.id = draws.chance.identifier ∧ x.expiresAt = t ∧
            Crypto.decrypt x.value (s.keyFor body.passphrase) = .ok (Crypto.utf8 value) ∧
            answer.2 = m.insert x ∧
            (m.find? draws.chance.identifier = none → answer.2.records = m.records ++ [x])) ∧
      ((∀ value t, ¬body.AsksFor s.defaultTtl now value t) →
        answer.1.status = 400 ∧ answer.2 = m) := by
  intro answer
  have hstored : ∀ {value t}, body.AsksFor s.defaultTtl now value t → ∃ x : Record,
      x.id = draws.chance.identifier ∧ x.expiresAt = t ∧
        Crypto.decrypt x.value (s.keyFor body.passphrase) = .ok (Crypto.utf8 value) ∧
        answer = (r.dress draws (.created x.id t), m.insert x) :=
    respond_of_asksFor hmethod hpath hbody
  have hrefused : (∀ value t, ¬body.AsksFor s.defaultTtl now value t) →
      answer.1.status = 400 ∧ answer.2 = m := by
    intro hnone
    obtain ⟨reason, hanswer⟩ : ∃ reason, answer = (r.dress draws (.ofFailure (.invalidRequest reason)), m) :=
      respond_of_not_asksFor hmethod hpath hbody hnone
    rw [hanswer]
    exact ⟨(Request.status_dress _ _ _).trans (Response.status_ofFailure _), rfl⟩
  refine ⟨⟨fun hcreated => ?_, ?_⟩, fun value t hasks => ?_, hrefused⟩
  · by_contra hnone
    have h400 := (hrefused fun value t hasks => hnone ⟨value, t, hasks⟩).1
    rw [hcreated] at h400
    exact absurd h400 (by decide)
  · rintro ⟨value, t, hasks⟩
    obtain ⟨x, -, -, -, hanswer⟩ := hstored hasks
    rw [hanswer]
    exact Request.status_dress _ _ _
  · obtain ⟨x, hid, ht, hopens, hanswer⟩ := hstored hasks
    rw [hanswer]
    have hhead : r.method ≠ .head := by
      rw [hmethod]
      decide
    refine ⟨(Request.dress_of_ne_head hhead draws _).2.trans (by rw [hid]; rfl), x, hid, ht, hopens, rfl,
      fun hfresh => Memory.records_insert_of_fresh (by rw [hid]; exact hfresh)⟩

/-- A secret whose lifetime is said to be empty is stored for the default time. -/
theorem created_for_default_time :
    let site : Site Rat := ⟨⟨"service key", ⟨3600000000000⟩⟩, none⟩
    let draws : Draws := ⟨⟨Vector.replicate 12 0, 0⟩, fun _ => 0, 0⟩
    let r : Request :=
      { method := .post, path := "/secrets".toList,
        headers := [("content-type", Crypto.utf8 "application/json")],
        body := Crypto.utf8 (String.ofList (Json.writeObject
          (Json.textMembers [("value", "attack at dawn"), ("ttl", "")]))) }
    let answer := site.respond Memory.store 0 ⟨10, 0⟩ draws r .empty
    answer.1.status = 201 ∧ ∃ x : Record, x.expiresAt = ⟨3610, 0⟩ ∧ answer.2.records = [x] := by
  intro site draws r answer
  have hbody : SecretRequest.ofRequest r = .ok ⟨some "attack at dawn", none, some ""⟩ := by
    have hannounced : r.headers.announceJson = true := by
      unfold Headers.announceJson Headers.text?
      rw [Headers.get?_singleton (by decide +kernel), Option.bind_some, text?_utf8, if_pos (by decide)]
      decide
    have hsize : r.body.length ≤ SecretRequest.maxBodySize := by decide +kernel
    have hread : SecretRequest.ofBytes r.body = .ok ⟨some "attack at dawn", none, some ""⟩ :=
      SecretRequest.ofBytes_writeObject (List.cons_ne_nil _ _) (by simp) (by simp)
    unfold SecretRequest.ofRequest
    rw [hannounced, if_pos rfl, if_pos hsize, hread]
  have hasks : SecretRequest.AsksFor site.service.defaultTtl ⟨10, 0⟩
      ⟨some "attack at dawn", none, some ""⟩ "attack at dawn" ⟨3610, 0⟩ :=
    ⟨rfl, by decide, _, .unsaid (Or.inr rfl), rfl⟩
  obtain ⟨hstatus, hstored, -⟩ := created_iff_asksFor (α := Rat) site.service 0 ⟨10, 0⟩ draws .empty
    (r := r) rfl rfl hbody
  obtain ⟨-, x, -, hexpiry, -, -, hrecords⟩ := hstored _ _ hasks
  exact ⟨hstatus.2 ⟨_, _, hasks⟩, x, hexpiry, hrecords rfl⟩

end Site

end Http

end BurnAfterRead
