import BurnAfterRead.Proofs.Http.Wire
import BurnAfterRead.Proofs.Service.Lending

/-!
# Redemption by header

The passphrase of a secret arrives as a text of a JSON body and is presented as the bytes of a header.
Headers are read back only if they are visible ASCII, with spaces and tabs. With such a passphrase a
secret is redeemed by its header until it expires; with another one it can be stored, but its header is
not heeded, and its reader is refused like one who has no passphrase.
-/

namespace BurnAfterRead

theorem Service.keyFor_of_ne (s : Service) {passphrase : String} (h : passphrase ≠ "") :
    s.keyFor (some passphrase) = passphrase := by
  unfold keyFor
  exact if_neg h

namespace Http

namespace SecretRequest

theorem filled?_of_ne {text : String} (h : text ≠ "") : filled? (some text) = some text := by
  unfold filled?
  rw [Option.filter_some, decide_eq_true h, if_pos rfl]

/-- The secret that a body asks for has the value of the body, and its passphrase unless that is
empty. -/
theorem toSecret_eq_ok {body : SecretRequest} {wanted : Secret} (h : body.toSecret = .ok wanted) :
    body.value = some wanted.value ∧ wanted.passphrase = filled? body.passphrase := by
  unfold toSecret at h
  split at h
  · cases h
  · rename_i value hvalue
    cases hlifetime : body.lifetime with
    | error f =>
      rw [hlifetime] at h
      cases h
    | ok ttl =>
      rw [hlifetime] at h
      obtain rfl := Except.ok.inj h
      exact ⟨Option.eq_some_of_filter_eq_some hvalue, rfl⟩

/-- The fields that are written into a body are read back from it. -/
theorem ofBytes_writeObject {members : List (String × String)} (hne : members ≠ [])
    (hknown : ∀ m ∈ members, ["value", "passphrase", "ttl"].contains m.1 = true)
    (nodup : (members.map (·.1)).Nodup) :
    ofBytes (Crypto.utf8 (String.ofList (Json.writeObject (Json.textMembers members)))) =
      .ok ⟨(Json.textFields members).get "value", (Json.textFields members).get "passphrase",
        (Json.textFields members).get "ttl"⟩ := by
  have hread := Json.readRecord_writeObject true hne hknown nodup []
  rw [List.append_nil] at hread
  unfold ofBytes
  rw [Json.source_utf8, String.toList_ofList, hread]

end SecretRequest

namespace Site

variable {α β : Type} [TokenNumber α] [TokenNumber β]

/-- A request that asks for a secret with a passphrase, and is answered that it was stored, tells where
and until when the secret can be had. Until then it can, sealed under its passphrase. -/
theorem lends_posted (b : Backend) (site : Site α) {calls between : List (Instant × Operation)}
    {steady : Int} {created expiry now : Instant} {draws : Draws} {post : Request} {body : SecretRequest}
    {wanted : Secret} {passphrase id : String}
    (hbody : SecretRequest.ofRequest post = .ok body) (hwanted : body.toSecret = .ok wanted)
    (hpassphrase : body.passphrase = some passphrase) (hne : passphrase ≠ "")
    (orderly : site.service.Orderly b.identifier b.Admits
      (calls ++ (created, .create draws.chance wanted) :: between))
    (hcreated : (site.respond b.store steady created draws post
      (site.service.performAll b.store calls b.empty).2).1.status = 201)
    (hbetween : ∀ call ∈ between, call.1.notAfter now = true ∧ ∀ other presented,
      call.2.Takes other presented → b.Denotes other draws.chance.random →
        Crypto.Shut draws.chance.nonce (Crypto.utf8 wanted.value) passphrase
          (site.service.keyFor presented))
    (hexpiry : site.service.accept wanted created = .ok expiry)
    (hbefore : b.Outlives created (b.kept expiry) now) (hid : b.Denotes id draws.chance.random) :
    let stored := site.respond b.store steady created draws post
      (site.service.performAll b.store calls b.empty).2
    stored.1.member? "id" = some (b.identifier draws.chance.random) ∧
      stored.1.member? "expiresAt" = some (b.kept expiry).text ∧
      ∃ x : Record, x.expiresAt = b.kept expiry ∧
        Crypto.encrypt draws.chance.nonce (Crypto.utf8 wanted.value) passphrase = .ok x.value ∧
        b.store.Lends now (site.service.performAll b.store between stored.2).2 id x := by
  intro stored
  obtain ⟨asked, d, x, hasked, hdraft, hx, hanswer, hleft⟩ :=
    site.exists_created steady created draws hcreated
  obtain rfl : wanted = asked := by
    rw [hbody, Except.bind, hwanted] at hasked
    exact Except.ok.inj hasked
  obtain ⟨-, hsame⟩ := SecretRequest.toSecret_eq_ok hwanted
  rw [hpassphrase, SecretRequest.filled?_of_ne hne] at hsame
  obtain ⟨haccept, drafted⟩ := Service.draft_eq_ok hdraft
  rw [hexpiry] at haccept
  obtain rfl := Except.ok.inj haccept
  have hsealed := drafted.sealed
  rw [hsame, site.service.keyFor_of_ne hne] at hsealed
  obtain rfl := b.eq_record_of_created orderly hdraft hx
  have hmembers := Response.member?_created (b.record d).id (b.record d).expiresAt
  have hidentifier : (b.record d).id = b.identifier draws.chance.random :=
    congrArg b.identifier drafted.random
  have hspared : ∀ call ∈ between, call.1.notAfter now = true ∧
      site.service.Spares call.2 (fun other => b.Denotes other draws.chance.random) (b.record d) := by
    intro call hcall
    obtain ⟨hearlier, hshut⟩ := hbetween call hcall
    refine ⟨hearlier, fun other presented htakes hdenotes => ?_⟩
    obtain ⟨f, hf⟩ := hshut other presented htakes hdenotes _ hsealed
    exact ⟨_, Service.reveal_of_decrypt_error hf⟩
  have hlends := b.lends_created orderly hdraft hx hbefore hspared hid
  rw [← hleft] at hlends
  refine ⟨?_, (Response.member?_congr hanswer "expiresAt").trans hmembers.2, b.record d, rfl, hsealed,
    hlends⟩
  rw [← hidentifier]
  exact (Response.member?_congr hanswer "id").trans hmembers.1

/-- A secret that was stored with a passphrase is redeemed by the header of that passphrase: over every
store, until it expires, whatever was done before and meanwhile, unless someone else could open it.
That is if the header is text. If it is not, the reader is refused, as the service's own key does not
open the secret. -/
theorem redeemable_by_header (b : Backend) (site : Site α) (reader : Site β)
    (hservice : reader.service = site.service) (calls between : List (Instant × Operation))
    (steady steady' : Int) (created expiry now : Instant) (draws draws' : Draws) (post get : Request)
    {body : SecretRequest} {wanted : Secret} {passphrase id : String}
    (hbody : SecretRequest.ofRequest post = .ok body) (hwanted : body.toSecret = .ok wanted)
    (hpassphrase : body.passphrase = some passphrase) (hne : passphrase ≠ "")
    (orderly : site.service.Orderly b.identifier b.Admits
      (calls ++ (created, .create draws.chance wanted) :: between))
    (hcreated : (site.respond b.store steady created draws post
      (site.service.performAll b.store calls b.empty).2).1.status = 201)
    (hbetween : ∀ call ∈ between, call.1.notAfter now = true ∧ ∀ other presented,
      call.2.Takes other presented → b.Denotes other draws.chance.random →
        Crypto.Shut draws.chance.nonce (Crypto.utf8 wanted.value) passphrase
          (site.service.keyFor presented))
    (hexpiry : site.service.accept wanted created = .ok expiry)
    (hbefore : b.Outlives created (b.kept expiry) now)
    (hadmits : reader.Admits steady' get) (hget : get.method = .get) (hnames : get.Names id)
    (hid : b.Denotes id draws.chance.random)
    (hheader : get.headers.get? "passphrase" = some (Crypto.utf8 passphrase)) :
    let stored := site.respond b.store steady created draws post
      (site.service.performAll b.store calls b.empty).2
    let answer := (reader.respond b.store steady' now draws' get
      (site.service.performAll b.store between stored.2).2).1
    stored.1.member? "id" = some (b.identifier draws.chance.random) ∧
      stored.1.member? "expiresAt" = some (b.kept expiry).text ∧
      (passphrase.toList.all isHeaderChar = true →
        answer.status = 200 ∧ answer.member? "value" = body.value) ∧
      (passphrase.toList.all isHeaderChar = false →
        Crypto.Shut draws.chance.nonce (Crypto.utf8 wanted.value) passphrase site.service.key →
        answer.status = 401) := by
  intro stored answer
  obtain ⟨hidentifier, htold, x, hkept, hsealed, hlends⟩ := lends_posted b site hbody hwanted hpassphrase
    hne orderly hcreated hbetween hexpiry hbefore hid
  have hlive : x.isExpired now = false := by
    rw [Record.isExpired, hkept]
    exact hbefore.1
  obtain ⟨hvalue, -⟩ := SecretRequest.toSecret_eq_ok hwanted
  have hread := passphrase?_of_get? hheader
  refine ⟨hidentifier, htold, fun htext => ?_, fun hodd hshut => ?_⟩
  · rw [if_pos htext] at hread
    have hopen : Crypto.decrypt x.value (reader.service.keyFor (passphrase? get.headers)) =
        .ok (Crypto.utf8 wanted.value) := by
      rw [hread, hservice, site.service.keyFor_of_ne hne]
      exact Crypto.decrypt_encrypt hsealed
    obtain ⟨hstatus, hplain, -⟩ :=
      reader.respond_opened steady' draws' hadmits (Or.inl hget) hnames hlends hlive hopen
    rw [hget, if_neg (by decide)] at hplain
    refine ⟨hstatus, ?_⟩
    rw [hvalue]
    exact (Response.member?_congr hplain "value").trans (Response.value_redeemed _ _ _)
  · -- The header counts as missing, so the service's own key is tried.
    rw [if_neg (by rw [hodd]; exact Bool.false_ne_true)] at hread
    obtain ⟨f, hf⟩ := hshut _ hsealed
    refine reader.status_of_refused steady' draws' hadmits (Or.inl hget) hnames hlends hlive (f := f) ?_
    rw [hread, hservice]
    exact hf

/-- A secret is stored in memory, a sweep passes, and a reader presents its passphrase. -/
theorem redeemable_by_plain_header :
    let site : Site Rat := ⟨⟨"service key", ⟨3600000000000⟩⟩, none⟩
    let draws : Draws := ⟨⟨Vector.replicate 12 0, 0⟩, fun _ => 0, 0⟩
    let draws' : Draws := ⟨⟨Vector.replicate 12 1, 1⟩, fun _ => 0, 1⟩
    let post : Request :=
      { method := .post, path := "/secrets".toList,
        headers := [("content-type", Crypto.utf8 "application/json")],
        body := Crypto.utf8 (String.ofList (Json.writeObject
          (Json.textMembers [("value", "attack at dawn"), ("passphrase", "x")]))) }
    let get : Request :=
      { method := .get, path := secretPath draws.chance.identifier,
        headers := [("passphrase", Crypto.utf8 "x")] }
    let answer := (site.respond Backend.memory.store 0 ⟨30, 0⟩ draws' get
      (site.service.performAll Backend.memory.store [(⟨20, 0⟩, .deleteExpired)]
        (site.respond Backend.memory.store 0 ⟨10, 0⟩ draws post
          (site.service.performAll Backend.memory.store [] Backend.memory.empty).2).2).2).1
    answer.status = 200 ∧ answer.member? "value" = some "attack at dawn" := by
  intro site draws draws' post get
  have hbody : SecretRequest.ofRequest post = .ok ⟨some "attack at dawn", some "x", none⟩ := by
    have hannounced : post.headers.announceJson = true := by
      unfold Headers.announceJson Headers.text?
      rw [Headers.get?_singleton (by decide +kernel), Option.bind_some, text?_utf8, if_pos (by decide)]
      decide
    have hsize : post.body.length ≤ SecretRequest.maxBodySize := by decide +kernel
    have hread : SecretRequest.ofBytes post.body = .ok ⟨some "attack at dawn", some "x", none⟩ :=
      SecretRequest.ofBytes_writeObject (List.cons_ne_nil _ _) (by simp) (by simp)
    unfold SecretRequest.ofRequest
    rw [hannounced, if_pos rfl, if_pos hsize, hread]
  let wanted : Secret := { value := "attack at dawn", passphrase := some "x" }
  have haccept : site.service.accept wanted ⟨10, 0⟩ = .ok ⟨3610, 0⟩ := by
    rw [Service.accept, Service.checkValue_eq_ok_iff.2 (by decide)]
    rfl
  obtain ⟨d, hdraft, -⟩ := Service.exists_draft draws.chance haccept
  have hplan : site.plan 0 draws post = .ok (.create draws.chance wanted) := by
    refine site.plan_post draws (fun _ _ => rfl) (by decide) rfl ?_
    rw [hbody]
    rfl
  have hcreated : (site.respond Backend.memory.store 0 ⟨10, 0⟩ draws post
      (site.service.performAll Backend.memory.store [] Backend.memory.empty).2).1.status = 201 :=
    site.status_of_created 0 hplan hdraft (x := d.record) rfl
  have orderly : site.service.Orderly Backend.memory.identifier Backend.memory.Admits
      ([] ++ (⟨10, 0⟩, .create draws.chance wanted) :: [(⟨20, 0⟩, .deleteExpired)]) := by
    refine ⟨by decide, by decide, fun now chance asked t hcall hexplicit => ?_,
      fun _ _ _ _ _ _ => trivial, by decide⟩
    obtain ⟨-, -, rfl⟩ : now = ⟨10, 0⟩ ∧ chance = draws.chance ∧ asked = wanted := by simpa using hcall
    cases hexplicit
  have hbetween : ∀ call ∈ [((⟨20, 0⟩ : Instant), Operation.deleteExpired)],
      call.1.notAfter ⟨30, 0⟩ = true ∧ ∀ other presented, call.2.Takes other presented →
        Backend.memory.Denotes other draws.chance.random →
          Crypto.Shut draws.chance.nonce (Crypto.utf8 wanted.value) "x"
            (site.service.keyFor presented) := by
    intro call hcall
    obtain rfl := List.mem_singleton.1 hcall
    refine ⟨by decide, fun other presented htakes => ?_⟩
    rcases htakes with htakes | htakes <;> cases htakes
  obtain ⟨-, -, hanswer, -⟩ := redeemable_by_header Backend.memory site site rfl []
    [(⟨20, 0⟩, .deleteExpired)] 0 0 ⟨10, 0⟩ ⟨3610, 0⟩ ⟨30, 0⟩ draws draws' post get hbody rfl rfl
    (by decide) orderly hcreated hbetween haccept ⟨by decide, fun h => by cases h⟩ (fun _ _ => rfl) rfl
    (Request.names_secretPath rfl) (Backend.memory.denotes_identifier 0)
    (Headers.get?_singleton (by decide +kernel) _)
  exact hanswer (by decide)

end Site

end Http

end BurnAfterRead
