import BurnAfterRead.Proofs.Http.Wire
import BurnAfterRead.Proofs.Service.InMemory

/-!
# What a response tells of the secrets

Over records in memory, the response to a request tells what became of the secrets. One that reports
an error has left all live secrets alone. A live secret that is gone was burnt by `DELETE`, or was
delivered; but `HEAD` takes it as `GET` does, and delivers nothing.
-/

namespace BurnAfterRead

namespace Http

/-- What the status of a response tells of the records before and after the request. -/
structure Request.Accounts (r : Request) (draws : Draws) (now : Instant) (m m' : Memory) (status : Nat) :
    Prop where
  /-- After a failure all live records are left, and of the others at most the one that was asked for is
  gone. -/
  failed : 400 ≤ status → m'.live now = m.live now ∧ m'.records ⊆ m.records ∧
    ∀ x ∈ m.records, x ∉ m'.records → x.isExpired now = true ∧ r.Names x.id
  /-- A creation adds one record, if its identifier is a new one. -/
  created : status = 201 → m.find? draws.chance.identifier = none →
    ∃ x, x.id = draws.chance.identifier ∧ m'.records = m.records ++ [x]
  /-- What is burnt is the record that the path names. -/
  burnt : status = 204 → ∃ x ∈ m.records, r.Names x.id ∧ m'.records = m.records.erase x

namespace Request.Accounts

variable {r : Request} {draws : Draws} {now : Instant} {m : Memory} {status : Nat} {id : String}
  {x : Record}

/-- Most responses leave all records alone. -/
theorem same (h : status = 200 ∨ 400 ≤ status) : r.Accounts draws now m m status where
  failed _ := ⟨rfl, List.Subset.refl _, fun _ hx hgone => absurd hx hgone⟩
  created h' := absurd h (by omega)
  burnt h' := absurd h (by omega)

theorem insert {s : Service} {wanted : Secret} {draft : Draft}
    (drafted : s.Drafted draws.chance wanted draft) :
    r.Accounts draws now m (m.insert draft.record) 201 where
  failed h := absurd h (by omega)
  created _ fresh := by
    have hid : draft.record.id = draws.chance.identifier := drafted.identifier_eq
    rw [← hid] at fresh
    exact ⟨_, hid, Memory.records_insert_of_fresh fresh⟩
  burnt h := absurd h (by omega)

theorem erase_expired (nodup : (m.records.map (·.id)).Nodup) (hfind : m.find? id = some x)
    (hnames : r.Names id) (hexpired : x.isExpired now = true) (h : 400 ≤ status) :
    r.Accounts draws now m (m.erase id) status where
  failed _ := by
    refine ⟨Memory.live_erase_of_expired nodup hfind hexpired, List.filter_sublist.subset, ?_⟩
    intro y hy hgone
    obtain rfl := Memory.eq_of_not_mem_erase nodup hfind hy hgone
    rw [Memory.id_of_find? hfind]
    exact ⟨hexpired, hnames⟩
  created h' := absurd h (by omega)
  burnt h' := absurd h (by omega)

theorem erase (nodup : (m.records.map (·.id)).Nodup) (hfind : m.find? id = some x)
    (hnames : r.Names id) (h : status = 200 ∨ status = 204) :
    r.Accounts draws now m (m.erase id) status where
  failed h' := absurd h (by omega)
  created h' := absurd h (by omega)
  burnt _ := by
    refine ⟨x, List.mem_of_find?_eq_some hfind, ?_, Memory.records_erase_of_find? nodup hfind⟩
    rw [Memory.id_of_find? hfind]
    exact hnames

end Request.Accounts

/-- A take of the secret that the path names accounts for the records, whatever the outcome is called. -/
theorem accounts_take {r : Request} {draws : Draws} {now : Instant} {m : Memory} {id : String} {β : Type}
    (s : Service) (nodup : (m.records.map (·.id)).Nodup) (hnames : r.Names id)
    (passphrase : Option String) {result : Secret → β} (outcome : Except Failure β → Outcome)
    (hfailed : ∀ f, (Response.ofOutcome now (outcome (.error f))).status = f.status)
    (htaken : ∀ secret, (Response.ofOutcome now (outcome (.ok (result secret)))).status = 200 ∨
      (Response.ofOutcome now (outcome (.ok (result secret)))).status = 204) :
    r.Accounts draws now m ((s.take id passphrase result).run (Memory.store.answer now) m).2
      (Response.ofOutcome now
        (outcome ((s.take id passphrase result).run (Memory.store.answer now) m).1)).status := by
  rcases s.take_cases now m id passphrase result with ⟨f, h⟩ | ⟨x, hfind, hexpired, h⟩ |
    ⟨x, secret, hfind, -, -, h⟩ <;> rw [h]
  · refine .same (Or.inr ?_)
    rw [hfailed]
    exact f.status_ge
  · refine .erase_expired nodup hfind hnames hexpired ?_
    rw [hfailed]
    exact Failure.status_ge _
  · exact .erase nodup hfind hnames (htaken secret)

namespace Site

variable {α : Type} [TokenNumber α] (site : Site α) (calls : List (Instant × Operation)) (steady : Int)
  (now : Instant) (draws : Draws) (r : Request)

/-- What is planned for a request accounts for the records. -/
theorem accounts_carryOut {m : Memory} (nodup : (m.records.map (·.id)).Nodup) :
    r.Accounts draws now m (carryOut site.service Memory.store now m (site.plan steady draws r)).2
      (carryOut site.service Memory.store now m (site.plan steady draws r)).1.status := by
  rcases site.plan_cases steady draws r with ⟨response, hplan, hstatus⟩ | ⟨wanted, -, -, hplan⟩ |
    ⟨id, hnames, -, hplan⟩ | ⟨id, hnames, -, hplan⟩ <;> rw [hplan]
  · exact .same hstatus
  · unfold carryOut
    dsimp only
    rw [Service.perform_create]
    rcases site.service.create_cases now m draws.chance wanted with ⟨f, h⟩ | ⟨draft, drafted, h⟩ <;> rw [h]
    · refine .same (Or.inr ?_)
      rw [Response.ofOutcome, Response.status_ofFailure]
      exact f.status_ge
    · exact .insert drafted
  · unfold carryOut
    dsimp only
    rw [Service.perform_get]
    exact accounts_take site.service nodup hnames _ .redeemed
      (fun f => Response.status_ofFailure f) fun _ => Or.inl rfl
  · unfold carryOut
    dsimp only
    rw [Service.perform_delete]
    exact accounts_take site.service nodup hnames _ .burnt
      (fun f => Response.status_ofFailure f) fun _ => Or.inr rfl

/-- Whatever operations have led to the records in memory, and whatever is requested then, the status of
the response tells what became of the records. -/
theorem records_of_status :
    r.Accounts draws now (site.service.memoryAfter calls)
      (site.respond Memory.store steady now draws r (site.service.memoryAfter calls)).2
      (site.respond Memory.store steady now draws r (site.service.memoryAfter calls)).1.status := by
  rw [respond_eq, Request.status_dress]
  exact site.accounts_carryOut steady now draws r (Service.nodup_memoryAfter calls)

variable {now draws r} in
/-- What takes a live record away is a reading or a burning under its identifier, by one who can open
it. -/
theorem taken_of_gone {m : Memory} (nodup : (m.records.map (·.id)).Nodup)
    (fresh : m.find? draws.chance.identifier = none) {x : Record} (hx : x ∈ m.records)
    (hlive : x.isExpired now = false)
    (hgone : x ∉ (carryOut site.service Memory.store now m (site.plan steady draws r)).2.records) :
    ∃ secret, Repository.reveal x (site.service.keyFor (passphrase? r.headers)) = .ok secret ∧
      r.Names x.id ∧
      ((r.method = .get ∨ r.method = .head) ∧
          site.plan steady draws r = .ok (.get x.id (passphrase? r.headers)) ∧
          (carryOut site.service Memory.store now m (site.plan steady draws r)).1 =
            .redeemed secret.id secret.value (secret.expiresAt.getD now) ∨
        r.method = .delete ∧
          (carryOut site.service Memory.store now m (site.plan steady draws r)).1 = .empty 204) := by
  rcases site.plan_cases steady draws r with ⟨response, hplan, -⟩ | ⟨wanted, -, -, hplan⟩ |
    ⟨id, hnames, hmethod, hplan⟩ | ⟨id, hnames, hmethod, hplan⟩ <;> rw [hplan] at hgone ⊢
  · exact absurd hx hgone
  · rw [carryOut, Service.perform_create] at hgone
    exact absurd (Service.subset_create fresh wanted hx) hgone
  · rw [carryOut, Service.perform_get] at hgone
    obtain ⟨rfl, secret, hopen, hrun⟩ := Service.opened_of_gone nodup hx hlive hgone
    refine ⟨secret, hopen, hnames, Or.inl ⟨hmethod, rfl, ?_⟩⟩
    rw [carryOut, Service.perform_get]
    exact congrArg (fun a => Response.ofOutcome now (.redeemed a)) hrun
  · rw [carryOut, Service.perform_delete] at hgone
    obtain ⟨rfl, secret, hopen, hrun⟩ := Service.opened_of_gone nodup hx hlive hgone
    refine ⟨secret, hopen, hnames, Or.inr ⟨hmethod, ?_⟩⟩
    rw [carryOut, Service.perform_delete]
    exact congrArg (fun a => Response.ofOutcome now (.burnt a)) hrun

/-- Whatever operations have led to the records in memory, and whatever is requested then: a live secret
that is gone was burnt by `DELETE`, or delivered by `GET`, or lost by `HEAD`. The identifier that the
request draws has to be a new one, and the cipher has to keep its promise for the passphrase that is
presented. -/
theorem burnt_or_delivered
    (fresh : (site.service.memoryAfter calls).find? draws.chance.identifier = none)
    (promise : ∀ t chance wanted, (t, .create chance wanted) ∈ calls →
      Crypto.Authentic chance.nonce (Crypto.utf8 wanted.value) (site.service.keyFor wanted.passphrase)
        (site.service.keyFor (passphrase? r.headers)))
    {x : Record} (hlive : x ∈ ((site.service.memoryAfter calls).live now).records)
    (hgone : x ∉ (site.respond Memory.store steady now draws r (site.service.memoryAfter calls)).2.records) :
    let response := (site.respond Memory.store steady now draws r (site.service.memoryAfter calls)).1
    ∃ t chance wanted draft, (t, .create chance wanted) ∈ calls ∧
      Service.Drafted site.service chance wanted draft ∧ x = draft.record ∧ r.Names x.id ∧
      (r.method = .delete ∧ response.status = 204 ∨
        r.method = .get ∧ response.status = 200 ∧ response.member? "value" = some wanted.value ∨
        r.method = .head ∧ response.status = 200 ∧ response.body = "") := by
  intro response
  obtain ⟨hx, hlive⟩ := List.mem_filter.1 hlive
  rw [Bool.not_eq_true'] at hlive
  obtain ⟨t, chance, wanted, draft, hcall, drafted, hrecord⟩ := Service.exists_creation hx
  refine ⟨t, chance, wanted, draft, hcall, drafted, hrecord, ?_⟩
  rw [respond_eq] at hgone
  obtain ⟨secret, hopen, hnames, hcase⟩ :=
    site.taken_of_gone steady (Service.nodup_memoryAfter calls) fresh hx hlive hgone
  refine ⟨hnames, ?_⟩
  have hresponse : response = r.dress draws (carryOut site.service Memory.store now
      (site.service.memoryAfter calls) (site.plan steady draws r)).1 :=
    congrArg Prod.fst (site.respond_eq Memory.store steady now draws r _)
  have hstatus := congrArg Response.status hresponse
  rw [Request.status_dress] at hstatus
  rcases hcase with ⟨hmethod, hplan, hresult⟩ | ⟨hmethod, hresult⟩
  · rw [hresult] at hstatus
    have hvalue : secret.value = wanted.value := by
      rw [hrecord] at hopen
      exact drafted.value_of_reveal (promise t chance wanted hcall) hopen
    have hbody := site.body_dress hplan (.redeemed secret.id secret.value (secret.expiresAt.getD now))
    rw [← hresult, ← hresponse, hresult] at hbody
    -- `HEAD` was planned and carried out like `GET`, and parts from it only here.
    rcases hmethod with hmethod | hmethod
    · rw [hmethod, if_neg (by decide)] at hbody
      rw [Response.member?_congr hbody, Response.value_redeemed, hvalue]
      exact Or.inr (Or.inl ⟨hmethod, hstatus, rfl⟩)
    · rw [hmethod, if_pos rfl] at hbody
      exact Or.inr (Or.inr ⟨hmethod, hstatus, hbody⟩)
  · rw [hresult] at hstatus
    exact Or.inl ⟨hmethod, hstatus⟩

/-- Where a secret has been created, a reader with its passphrase takes it away. -/
theorem respond_created (chance : Chance) {created expiry : Instant} {wanted : Secret}
    (haccept : site.service.accept wanted created = .ok expiry) (hlive : expiry.notAfter now = false)
    (hadmits : site.Admits steady r) (hmethod : r.method = .get ∨ r.method = .head)
    (hpath : r.path = secretPath chance.identifier)
    (hkey : site.service.keyFor (passphrase? r.headers) = site.service.keyFor wanted.passphrase) :
    ∃ x, (site.service.memoryAfter [(created, .create chance wanted)]).records = [x] ∧
      x.id = chance.identifier ∧ x.isExpired now = false ∧
      (let answer := site.respond Memory.store steady now draws r
        (site.service.memoryAfter [(created, .create chance wanted)])
      answer.1.status = 200 ∧ x ∉ answer.2.records ∧
        answer.1.body =
          if r.method = .head then "" else (Response.redeemed x.id wanted.value x.expiresAt).body) := by
  obtain ⟨x, hm, hid, hexpiry, htoken⟩ := Service.memoryAfter_create chance haccept
  have hnames : r.Names x.id := hid ▸ Request.names_secretPath hpath
  have hopen := Crypto.decrypt_encrypt htoken
  rw [← hkey] at hopen
  rw [← hexpiry] at hlive
  rw [hm]
  obtain ⟨hstatus, hbody, hleft⟩ := site.respond_opened steady draws hadmits hmethod hnames
    (Memory.lends_of_find? (Memory.find?_singleton x) now) hlive hopen
  refine ⟨x, rfl, hid, hlive, hstatus, ?_, hbody⟩
  rw [hleft, Memory.answerFind_records]
  exact Memory.not_mem_erase _ x

/-- The reader of a secret gets it, and it is gone. -/
theorem delivered_to_reader :
    let site : Site Rat := ⟨⟨"service key", ⟨0⟩⟩, none⟩
    let draws : Draws := ⟨⟨Vector.replicate 12 0, 0⟩, fun _ => 0, 0⟩
    let draws' : Draws := ⟨⟨Vector.replicate 12 1, 1⟩, fun _ => 0, 1⟩
    let wanted : Secret := { value := "attack at dawn", expiresAt := some ⟨100, 0⟩ }
    let r : Request := { method := .get, path := secretPath draws.chance.identifier }
    (site.respond Memory.store 0 ⟨20, 0⟩ draws' r
      (site.service.memoryAfter [(⟨10, 0⟩, .create draws.chance wanted)])).1.member? "value" =
        some wanted.value := by
  intro site draws draws' wanted r
  have haccept : site.service.accept wanted ⟨10, 0⟩ = .ok ⟨100, 0⟩ := by
    rw [Service.accept, Service.checkValue_eq_ok_iff.2 (by decide)]
    rfl
  obtain ⟨x, hx, hid, hlive, -, hgone, -⟩ := site.respond_created 0 ⟨20, 0⟩ draws' r draws.chance haccept
    rfl (fun _ _ => rfl) (Or.inl rfl) rfl rfl
  have hmem : x ∈ (site.service.memoryAfter [(⟨10, 0⟩, .create draws.chance wanted)]).records := by
    rw [hx]
    exact List.mem_cons_self
  have hfresh : (site.service.memoryAfter [(⟨10, 0⟩, .create draws.chance wanted)]).find?
      draws'.chance.identifier = none := by
    unfold Memory.find?
    rw [hx]
    refine List.find?_cons_of_neg fun h => ?_
    rw [beq_iff_eq, hid] at h
    exact absurd h (by decide)
  have hcreated : ∀ t chance wanted', (t, .create chance wanted') ∈
      [((⟨10, 0⟩ : Instant), Operation.create draws.chance wanted)] → wanted' = wanted := by
    intro t chance wanted' hcall
    exact (Operation.create.inj (Prod.mk.inj (List.mem_singleton.1 hcall)).2).2
  obtain ⟨t, chance, wanted', draft, hcall, -, -, -, hdelete | ⟨-, -, hvalue⟩ | hhead⟩ :=
    site.burnt_or_delivered _ 0 ⟨20, 0⟩ draws' r hfresh
      (fun t chance wanted' hcall => by
        rw [hcreated t chance wanted' hcall]
        exact Crypto.authentic_of_cipherKey_eq rfl)
      (List.mem_filter.2 ⟨hmem, by rw [hlive]; rfl⟩) hgone
  · exact absurd hdelete.1 (by decide)
  · rw [hcreated t chance wanted' hcall] at hvalue
    exact hvalue
  · exact absurd hhead.1 (by decide)

end Site

/-- A secret that no one has read is lost to a client who asks for it by `HEAD`: the request succeeds,
and what the client gets is empty. -/
theorem head_loses_secret :
    let site : Site Rat := ⟨⟨"service key", ⟨0⟩⟩, none⟩
    let draws : Draws := ⟨⟨Vector.replicate 12 0, 0⟩, fun _ => 0, 0⟩
    let wanted : Secret := { value := "attack at dawn", expiresAt := some ⟨100, 0⟩ }
    let r : Request := { method := .head, path := secretPath draws.chance.identifier }
    ∃ x ∈ ((site.service.memoryAfter [(⟨10, 0⟩, .create draws.chance wanted)]).live ⟨20, 0⟩).records,
      x ∉ (site.respond Memory.store 0 ⟨20, 0⟩ draws r
        (site.service.memoryAfter [(⟨10, 0⟩, .create draws.chance wanted)])).2.records ∧
      r.method ≠ .delete ∧
      (site.respond Memory.store 0 ⟨20, 0⟩ draws r
        (site.service.memoryAfter [(⟨10, 0⟩, .create draws.chance wanted)])).1.status = 200 ∧
      (site.respond Memory.store 0 ⟨20, 0⟩ draws r
        (site.service.memoryAfter [(⟨10, 0⟩, .create draws.chance wanted)])).1.body = "" := by
  intro site draws wanted r
  have haccept : site.service.accept wanted ⟨10, 0⟩ = .ok ⟨100, 0⟩ := by
    rw [Service.accept, Service.checkValue_eq_ok_iff.2 (by decide)]
    rfl
  obtain ⟨x, hx, -, hlive, hstatus, hgone, hbody⟩ := site.respond_created 0 ⟨20, 0⟩ draws r draws.chance
    haccept rfl (fun _ _ => rfl) (Or.inr rfl) rfl rfl
  rw [if_pos rfl] at hbody
  have hmem : x ∈ (site.service.memoryAfter [(⟨10, 0⟩, .create draws.chance wanted)]).records := by
    rw [hx]
    exact List.mem_cons_self
  exact ⟨x, List.mem_filter.2 ⟨hmem, by rw [hlive]; rfl⟩, hgone, by decide, hstatus, hbody⟩

end Http

end BurnAfterRead
