import BurnAfterRead.Proofs.Concurrency.Confinement
import BurnAfterRead.Proofs.Http.Wire
import BurnAfterRead.Proofs.Store.Document

/-!
# Absence leaks nothing

One who asks for a secret that is not there learns nothing but that. It was never stored, or it was
redeemed, or burnt, or it has expired and was swept, or its expired record is still stored and perhaps
cannot even be removed: the answer is the same, whatever passphrase comes with the request.
-/

namespace BurnAfterRead

namespace Concurrency.Scene

open Dialogue Service

variable {σ : Type} {store : Store σ} {empty : σ} {identifier : BitVec 128 → String}
  {Denotes : String → BitVec 128 → Prop} {K : Custody store empty identifier Denotes} {s : Service}
  {w : Scene σ} {trace : List Event} {id : String} {now : Instant}

/-- There is no secret under an identifier at a time. Of a secret that has expired the record may be
swept or not. -/
inductive Absent (Denotes : String → BitVec 128 → Prop) (trace : List Event) (w : Scene σ) (now : Instant)
    (id : String) : Prop where
  /-- The store was never asked to keep anything under it. -/
  | unissued (h : ∀ d ∈ drafts trace, ¬Denotes id d.random)
  | redeemed {i : Nat} {id' : String} {passphrase : Option String} {secret : Secret}
      (returned : w.Returned i (.get id' passphrase) (.redeemed (.ok secret)))
      (same : ∀ random, Denotes id' random → Denotes id random)
  | burnt {i : Nat} {id' : String} {passphrase : Option String}
      (returned : w.Returned i (.delete id' passphrase) (.burnt (.ok ())))
      (same : ∀ random, Denotes id' random → Denotes id random)
  | expired {k : Nat} {chance : Chance} {wanted created : Secret} {t : Instant}
      (returned : w.Returned k (.create chance wanted) (.created (.ok created)))
      (same : Denotes id chance.random) (expiry : created.expiresAt = some t) (exist : t.WellFormed)
      (lapsed : t.notAfter now = true)

/-- What was taken away is no longer there. -/
theorem Run.vacant_of_taken (K : Custody store empty identifier Denotes)
    (run : Run store s (quiet empty) trace w) (distinct : Distinct identifier trace) {i : Nat}
    {op : Operation} {o : Outcome} {id' : String} {passphrase : Option String}
    (returned : w.Returned i op o) (takes : op.Takes id' passphrase) (ok : o.Succeeds)
    (same : ∀ random, Denotes id' random → Denotes id random) : Vacant K trace id w := by
  obtain ⟨now, hserved⟩ := run.removed returned takes ok
  obtain ⟨d, -, hid, hvacant⟩ := run.vacant_of_removed K distinct hserved
  exact hvacant.congr hid (same _ hid)

/-- A lookup of a secret that is absent finds nothing, or an expired record. -/
theorem Run.find_of_absent (K : Custody store empty identifier Denotes)
    (run : Run store s (quiet empty) trace w) (distinct : Distinct identifier trace)
    (absent : Absent Denotes trace w now id) (t : Instant) :
    (store t (.find id) w.state).1 = .error .secretNotFound ∨
      ∃ r, (store t (.find id) w.state).1 = .ok r ∧ r.isExpired now = true := by
  have missed : Vacant K trace id w → (store t (.find id) w.state).1 = .error .secretNotFound := by
    intro h
    rcases (K.find h.held t id).2 with ⟨hmiss, -⟩ | ⟨d, hd, hid, -⟩
    · exact hmiss
    · exact absurd hid hd.2.2
  cases absent with
  | unissued h =>
    exact Or.inl (missed ((Run.refl (quiet empty)).confined run distinct (confined_quiet _) h))
  | redeemed returned same =>
    exact Or.inl (missed (run.vacant_of_taken K distinct returned (Or.inl rfl) rfl same))
  | burnt returned same =>
    exact Or.inl (missed (run.vacant_of_taken K distinct returned (Or.inr rfl) rfl same))
  | expired returned same expiry exist lapsed =>
    obtain ⟨d, r, landed, drafted, rfl, -, hread⟩ := run.issued K distinct returned
    obtain rfl := Option.some.inj expiry
    rcases (K.find (run.sound K distinct).held t id).2 with ⟨hmiss, -⟩ | ⟨d', hd', hid', hread'⟩
    · exact Or.inl hmiss
    · rw [← drafted.random] at same
      obtain rfl := distinct.eq hd'.1 landed.asked ((K.denotes_iff same _).1 hid')
      exact Or.inr ⟨r, hread'.trans (hread exist), lapsed⟩

end Concurrency.Scene

namespace Service

variable {σ : Type} {s : Service} {store : Store σ} {now : Instant} {id : String}
  {passphrase : Option String} {st : σ}

/-- A take that finds its record and opens it, but whose removal finds none: another call was faster. -/
def Beaten (s : Service) (store : Store σ) (now : Instant) (id : String) (passphrase : Option String)
    (st : σ) : Prop :=
  ∃ r secret, (store now (.find id) st).1 = .ok r ∧ r.isExpired now = false ∧
    Repository.reveal r (s.keyFor passphrase) = .ok secret ∧
    (store now (.remove id) (store now (.find id) st).2).1 = .error .secretNotFound

/-- A take of a record that is missing, or has expired, or that another call removes meanwhile. -/
theorem run_take_of_absent {α : Type} (result : Secret → α)
    (h : ((store now (.find id) st).1 = .error .secretNotFound ∨
      ∃ r, (store now (.find id) st).1 = .ok r ∧ r.isExpired now = true) ∨
        s.Beaten store now id passphrase st) :
    ((s.take id passphrase result).run (store.answer now) st).1 = .error .secretNotFound := by
  rcases h with (hmissing | ⟨r, hfound, hexpired⟩) | ⟨r, secret, hfound, hlive, hopen, hremove⟩
  · rw [s.run_take_of_missing passphrase result hmissing]
  · rw [s.run_take_of_expired passphrase result hfound hexpired]
  · rw [s.run_take_of_beaten passphrase result hfound hlive hopen hremove]

end Service

namespace Http

variable {α : Type} [TokenNumber α]

/-- What the limiter, if there is one, says to a client who asks for a secret. -/
def verdict (limiter : Option (Limiter α)) (client : String) (steady : Int) : Admission :=
  match limiter with
  | some limiter => (limiter.check client steady).1
  | none => .admitted

/-- What a request for a secret is answered if there is none. No identifier, passphrase, store or time
of day enters into it, only what the limiter knows of the client. -/
def Response.absent (limiter : Option (Limiter α)) (client : String) (steady : Int)
    (requestId : HeaderValue) : Response :=
  let failure : Failure := match verdict limiter client steady with
    | .admitted => .secretNotFound
    | .rejected wait => .tooManyRequests wait
  (ofFailure failure).withHeader "x-request-id" requestId

namespace Site

variable {σ : Type} {store : Store σ} {st : σ} {site : Site α} {steady : Int} {now : Instant}
  {draws : Draws} {r : Request} {id : String}

theorem check_secret (segment : List Char) :
    (site.check steady r (.secret segment)).1 = verdict site.limiter r.clientKey steady := by
  unfold check verdict
  cases site.limiter <;> rfl

theorem dress_of_names (hnames : r.Names id) (hmethod : r.method = .get ∨ r.method = .delete)
    (response : Response) :
    r.dress draws response = response.withHeader "x-request-id" (requestId draws r.headers) := by
  obtain ⟨segment, hroute, -⟩ := hnames
  unfold Request.dress
  rw [hroute]
  rcases hmethod with h | h <;> rw [h] <;> rfl

/-- What is answered to a request whose take is told that there is no secret. -/
theorem respond_of_absent (hnames : r.Names id) (hmethod : r.method = .get ∨ r.method = .delete)
    (h : ((store now (.find id) st).1 = .error .secretNotFound ∨
      ∃ x, (store now (.find id) st).1 = .ok x ∧ x.isExpired now = true) ∨
        site.service.Beaten store now id (passphrase? r.headers) st) :
    (site.respond store steady now draws r st).1 =
      .absent site.limiter r.clientKey steady (requestId draws r.headers) := by
  rw [respond_eq, dress_of_names hnames hmethod]
  unfold Response.absent
  cases hverdict : verdict site.limiter r.clientKey steady with
  | rejected wait =>
    obtain ⟨segment, hroute, -⟩ := hnames
    have hplan : site.plan steady draws r = .error (.ofFailure (.tooManyRequests wait)) := by
      unfold plan
      rw [hroute]
      dsimp only
      rw [check_secret, hverdict]
    rw [hplan]
    rfl
  | admitted =>
    have hadmits : site.Admits steady r := by
      obtain ⟨segment, hroute, -⟩ := hnames
      intro route hroute'
      obtain rfl := Option.some.inj (hroute.symm.trans hroute')
      rw [check_secret, hverdict]
    rcases hmethod with hmethod | hmethod
    · rw [site.plan_get draws hadmits hnames (Or.inl hmethod), carryOut, Service.perform_get, Service.get]
      dsimp only
      rw [Service.run_take_of_absent _ h]
      rfl
    · rw [site.plan_delete draws hadmits hnames hmethod, carryOut, Service.perform_delete, Service.delete]
      dsimp only
      rw [Service.run_take_of_absent _ h]
      rfl

end Site

open Concurrency Site

/-- Absence leaks nothing. Calls on one store have interleaved in any way, and now someone asks for a
secret that is not there. Whichever way it is not there, whatever key it was sealed under and whatever
passphrase comes with the request, and whatever the store says to a removal, the response is the same up
to the request's identifier. It is also the same where the secret was there a moment ago, and another
call is faster to take it. -/
theorem absence_leaks_nothing {σ : Type} {store : Store σ} {empty : σ}
    {identifier : BitVec 128 → String} {Denotes : String → BitVec 128 → Prop}
    (K : Custody store empty identifier Denotes) (s : Service) {trace : List Event} {w : Scene σ}
    (run : Scene.Run store s (.quiet empty) trace w) (fresh : w.Fresh identifier) (site : Site α)
    (store' : Store σ) (lookup : ∀ now id st, store' now (.find id) st = store now (.find id) st)
    (steady : Int) (now : Instant) (draws : Draws) {r : Request} {id : String} (hnames : r.Names id)
    (hmethod : r.method = .get ∨ r.method = .delete)
    (absent : w.Absent Denotes trace now id ∨
      site.service.Beaten store' now id (passphrase? r.headers) w.state) :
    (site.respond store' steady now draws r w.state).1 =
      .absent site.limiter r.clientKey steady (requestId draws r.headers) := by
  refine respond_of_absent hnames hmethod (absent.imp_left fun absent => ?_)
  rw [lookup]
  exact run.find_of_absent K (run.nodup_drafts fresh) absent now

/-- A document that has expired, and that the server fails to remove: one who would burn it with the
passphrase that it is sealed under is answered as if it had never been there. -/
theorem absence_leaks_nothing_of_expired :
    let site : Site Rat := ⟨⟨"service key", ⟨0⟩⟩, none⟩
    let store' : Store Document.Collection := fun now c st =>
      match c with
      | .remove _ => (.error .timeout, st)
      | c => Document.store now c st
    let draws : Draws := ⟨⟨Vector.replicate 12 1, 1⟩, fun _ => 0, 1⟩
    let r : Request :=
      { method := .delete, path := secretPath (ObjectId.ofRandom 0).text,
        headers := [("passphrase", Crypto.utf8 "sesame")] }
    ∃ (w : Scene Document.Collection) (x : Record),
      (store' ⟨200, 0⟩ (.find (ObjectId.ofRandom 0).text) w.state).1 = .ok x ∧
      (site.respond store' 0 ⟨200, 0⟩ draws r w.state).1 =
        .absent site.limiter r.clientKey 0 (requestId draws r.headers) := by
  intro site store' draws r
  let chance : Chance := ⟨Vector.replicate 12 0, 0⟩
  let wanted : Secret :=
    { value := "attack at dawn", passphrase := some "sesame", expiresAt := some ⟨100, 0⟩ }
  have haccept : site.service.accept wanted ⟨50, 0⟩ = .ok ⟨100, 0⟩ := by
    rw [Service.accept, Service.checkValue_eq_ok_iff.2 (by decide)]
    rfl
  obtain ⟨⟨value, _, random⟩, hdraft, rfl⟩ := Service.exists_draft chance haccept
  obtain rfl : random = 0 := (Service.draft_eq_ok hdraft).2.random
  let x : Record := ⟨(ObjectId.ofRandom 0).text, value, ⟨100, 0⟩⟩
  let w : Scene Document.Collection :=
    ⟨⟨[⟨some (ObjectId.ofRandom 0), value, 100000⟩]⟩,
      [⟨.create chance wanted, .done (.created (.ok (Service.shell x)))⟩], []⟩
  have hstored : Document.store ⟨50, 0⟩ (.insert ⟨value, ⟨100, 0⟩, 0⟩) .empty =
      (.ok x, w.state) := by
    have htime : (⟨100, 0⟩ : Instant).millis = 100000 := by decide
    have hmillis : Instant.ofMillis? 100000 = some ⟨100, 0⟩ := by decide
    have hread : (Document.ofDraft ⟨value, ⟨100, 0⟩, 0⟩).toRecord = .ok x := by
      simp only [Document.ofDraft, Document.toRecord, htime, hmillis]
      rfl
    rw [Document.Collection.empty, Document.insert_documents _ List.find?_nil, hread]
    simp only [Document.ofDraft, htime, List.nil_append, w]
    rfl
  obtain ⟨trace, run, -⟩ := Scene.Run.create_alone hdraft hstored
  have fresh : w.Fresh fun random => (ObjectId.ofRandom random).text :=
    Scene.fresh_of_creator fun _ _ _ _ h => Nat.lt_one_iff.1 (List.getElem?_eq_some_iff.1 h).1
  have hnames : r.Names (ObjectId.ofRandom 0).text :=
    ⟨_, ofPath?_secretPath (ObjectId.text_ofRandom_ne 0) (by decide), Text.percentText?_of_plain (by decide)⟩
  have lookup : ∀ now id st, store' now (.find id) st = Document.store now (.find id) st :=
    fun _ _ _ => rfl
  have exist : (⟨100, 0⟩ : Instant).WellFormed := by decide
  have lapsed : (⟨100, 0⟩ : Instant).notAfter ⟨200, 0⟩ = true := by decide
  have hid : ObjectId.ofText? (ObjectId.ofRandom 0).text = some (ObjectId.ofRandom chance.random) :=
    ObjectId.ofText?_text_ofRandom 0
  refine ⟨w, x, rfl, ?_⟩
  exact absence_leaks_nothing Document.custody site.service run fresh site store' lookup 0 ⟨200, 0⟩ draws
    hnames (Or.inr rfl) (Or.inl (.expired (k := 0) rfl hid rfl exist lapsed))

end Http

end BurnAfterRead
