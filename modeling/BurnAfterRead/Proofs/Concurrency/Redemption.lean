import BurnAfterRead.Proofs.Concurrency.Conservation
import BurnAfterRead.Proofs.Service.InMemory
import BurnAfterRead.Proofs.Service.Ledger

/-!
# One reader at most, and one reader in the end

A take returns a result only after the store has told it that it removed the record, and under a fresh
identifier the store tells so once. What it returns is what its key makes of the token. Where nothing
fails, a record stays until a removal is acknowledged, so of those who contend for it, one is told.
-/

namespace BurnAfterRead

namespace Memory

/-- A record stays where it is unless a command replaces it, removes it or finds it expired. -/
theorem find?_store {m : Memory} {r : Record} (h : m.find? r.id = some r) {now : Instant}
    {c : Command} (hstores : c.stores r.id = false)
    (hremoves : c.removes r.id (store now c m).1 = false) (hlive : r.isExpired now = false) :
    (store now c m).2.find? r.id = some r := by
  cases c with
  | find id =>
    simp only [store]
    split <;> exact h
  | insert draft =>
    have hne : draft.record.id ≠ r.id := by
      simpa [Command.stores, Draft.identifier, Draft.record] using hstores
    exact (find?_insert_of_ne m hne).trans h
  | remove id =>
    by_cases hid : id = r.id
    · subst hid
      rw [store_remove, if_neg (by simp [h])] at hremoves
      exact absurd hremoves (by simp [Command.removes])
    · exact (find?_erase_of_ne m (Ne.symm hid)).trans h
  | sweep =>
    obtain ⟨hid, front, back, hm, hfront⟩ := List.find?_eq_some_iff_append.1 h
    refine List.find?_eq_some_iff_append.2 ⟨hid, front.filter fun r => !r.isExpired now,
      back.filter fun r => !r.isExpired now, ?_, ?_⟩
    · simp [store, live, hm, hlive]
    · intro a ha
      exact hfront a (List.mem_filter.1 ha).1
  | close => exact h

end Memory

namespace Concurrency

open Dialogue Service

theorem eq_nil_of_last_mem {α : Type} {a b : List α} {x : α} (front : List α) (h : a ++ b = front ++ [x])
    (hx : x ∈ a) (hfront : x ∉ front) : b = [] := by
  rcases List.eq_nil_or_concat b with hb | ⟨ys, y, rfl⟩
  · exact hb
  · rw [List.concat_eq_append, ← List.append_assoc] at h
    obtain ⟨hfront', -⟩ := List.append_inj' h rfl
    exact absurd (hfront' ▸ List.mem_append_left _ hx) hfront

namespace Scene

variable {s : Service} {v w : Scene Memory} {trace : List Event}

/-- Call `i` took the secret of an identifier: it has returned a result. -/
def Took (w : Scene Memory) (i : Nat) (id : String) : Prop :=
  ∃ op passphrase o, op.Takes id passphrase ∧ w.Returned i op o ∧ o.Succeeds

namespace Run

/-- What a lookup found is the record of a draft. -/
theorem found_record (run : Run Memory.store s (quiet .empty) trace w)
    {i : Nat} {now : Instant} {id : String} {r : Record}
    (h : .served i now (.find id) (.ok r) ∈ trace) :
    ∃ d ∈ drafts trace, r = d.record ∧ r.id = id := by
  obtain ⟨before, after, rfl⟩ := List.append_of_mem h
  obtain ⟨v, -, hv, -, hreply, -⟩ := run.reply_eq
  have hfind := Memory.find?_of_store_find hreply.symm
  obtain ⟨d, hd, hr⟩ := hv.origin.1 r (List.mem_of_find?_eq_some hfind)
  exact ⟨d, mem_drafts_append_left hd _, hr, Memory.id_of_find? hfind⟩

/-- What came before a call took a secret: the record was found and opened, and its removal
acknowledged to this call. -/
theorem taken (run : Run Memory.store s (quiet .empty) trace w)
    {i : Nat} {op : Operation} {o : Outcome} {id : String} {passphrase : Option String}
    (h : w.Returned i op o) (takes : op.Takes id passphrase) (ok : o.Succeeds) :
    ∃ now r secret, .served i now (.remove id) (.ok ()) ∈ trace ∧
      (∃ d ∈ drafts trace, r = d.record ∧ r.id = id) ∧
      Repository.reveal r (s.keyFor passphrase) = .ok secret ∧
      (op = .get id passphrase → o = .redeemed (.ok secret)) := by
  obtain ⟨a, htaking, ⟨secret, rfl, -, hget⟩ | ⟨f, rfl, hf⟩⟩ := run.taking h takes
  · generalize hl : exchanges i trace = l at htaking
    cases htaking with
    | @taken r now _ hlive hopen =>
      have hfind : (⟨.store (.find id), (.ok r : (Command.find id).Reply)⟩ : Exchange) ∈
          exchanges i trace := by simp [hl]
      have hremove : (⟨.store (.remove id), (.ok () : (Command.remove id).Reply)⟩ : Exchange) ∈
          exchanges i trace := by simp [hl]
      obtain ⟨t, hfound⟩ := exists_served_of_ok hfind
      obtain ⟨t', hremoved⟩ := exists_served_of_ok hremove
      exact ⟨t', r, secret, hremoved, run.found_record hfound, hopen, hget⟩
  · exact absurd (hf.symm.trans ok) (by simp)

/-- Under a fresh identifier, the removal of a record is acknowledged to one call at most. -/
theorem removed_unique (run : Run Memory.store s (quiet .empty) trace w)
    (fresh : w.Fresh fun random => (Uuid.ofRandom random).text) {i j : Nat} {now now' : Instant}
    {id : String} (hi : .served i now (.remove id) (.ok ()) ∈ trace)
    (hj : .served j now' (.remove id) (.ok ()) ∈ trace) : i = j := by
  have h := eq_of_countP_le_one (run.removals_le_one fresh id) hi hj
    (beq_self_eq_true id) (beq_self_eq_true id)
  exact (Event.served.inj h).1

/-- A call to which a removal was acknowledged has taken the secret, or has found it expired. -/
theorem took_of_removed (run : Run Memory.store s (quiet .empty) trace w) {j : Nat} {now : Instant}
    {id : String} (h : .served j now (.remove id) (.ok ()) ∈ trace) :
    ∃ op passphrase r t, op.Takes id passphrase ∧
      (⟨.store (.find id), (.ok r : (Command.find id).Reply)⟩ : Exchange) ∈ exchanges j trace ∧
      .read j t ∈ trace ∧
      (r.isExpired t = true ∨
        ∃ o secret, w.Returned j op o ∧ o.Succeeds ∧
          Repository.reveal r (s.keyFor passphrase) = .ok secret) := by
  have hx : (⟨.store (.remove id), (.ok () : (Command.remove id).Reply)⟩ : Exchange) ∈
      exchanges j trace := List.mem_filterMap.2 ⟨_, h, if_pos rfl⟩
  obtain ⟨⟨op, rest⟩, hc⟩ := run.exists_course h (if_pos rfl)
  have hpath := run.path hc
  obtain ⟨l', o, hend⟩ := hpath.exists_end
  obtain ⟨passphrase, r, t, takes, hl, hcase⟩ :=
    (Operation.course_of_path hend).removed (List.mem_append_left l' hx)
  -- The removal is the last step, so the call has come to its end.
  have hnil : l' = [] := by
    refine eq_nil_of_last_mem [⟨.store (.find id), .ok r⟩, ⟨.now, t⟩] hl hx ?_
    intro hmem
    nomatch hmem
  rw [hnil, List.append_nil] at hl hend
  refine ⟨op, passphrase, r, t, takes, by rw [hl]; simp, ?_, hcase.imp_right ?_⟩
  · refine exists_read_of_mem (i := j) ?_
    rw [hl]
    simp
  · rintro ⟨secret, hopen, ok⟩
    refine ⟨o, secret, ?_, ok, hopen⟩
    rw [Scene.Returned, hc, hpath.unique hend]

/-- Records stay in a run in which nothing fails, nothing expires, no record is asked for under the
same identifier and no removal is acknowledged. -/
theorem stays (run : Run Memory.store s v trace w) {r : Record}
    (h : v.state.find? r.id = some r) (faultless : ∀ e ∈ trace, ¬ e.IsFault)
    (unexpired : ∀ e ∈ trace, ∀ now, e.time? = some now → r.isExpired now = false)
    (hrequests : requests trace r.id = 0) (hremovals : removals trace r.id = 0) :
    w.state.find? r.id = some r := by
  induction run with
  | refl => exact h
  | @tail u w trace e run step ih =>
    rw [requests_snoc] at hrequests
    rw [removals_snoc] at hremovals
    have hmem : e ∈ trace ++ [e] := by simp
    have hu := ih (fun e he => faultless e (List.mem_append_left _ he))
      (fun e he => unexpired e (List.mem_append_left _ he)) (by omega) (by omega)
    cases step with
    | start op => exact hu
    | read now hc => exact hu
    | @serve i op c next now hc =>
      have hstores := toNat_stores_le c r.id
        (e := .served i now c (Memory.store now c u.state).1) (by rintro draft rfl; rfl)
      have hremoves : (c.removes r.id (Memory.store now c u.state).1).toNat = 0 :=
        (Nat.add_eq_zero_iff.1 hremovals).2
      refine Memory.find?_store hu ?_ ?_ (unexpired _ hmem now rfl)
      · exact Bool.toNat_eq_zero.1 (by omega)
      · exact Bool.toNat_eq_zero.1 hremoves
    | fail f hc => exact absurd trivial (faultless _ hmem)
    | settle now hc => exact absurd trivial (faultless _ hmem)

/-- A creation that has returned a secret has had its draft stored. -/
theorem issued_record (run : Run Memory.store s (quiet .empty) trace w)
    {k : Nat} {chance : Chance} {wanted created : Secret}
    (h : w.Returned k (.create chance wanted) (.created (.ok created))) :
    ∃ d now, Drafted s chance wanted d ∧ created = shell d.record ∧
      .served k now (.insert d) (.ok d.record) ∈ trace := by
  obtain ⟨d, r, now, drafted, hcreated, hserved⟩ := run.stored h
  obtain ⟨front, back, rfl⟩ := List.append_of_mem hserved
  obtain ⟨u, -, -, -, hreply, -⟩ := run.reply_eq
  obtain rfl : r = d.record := Except.ok.inj hreply
  exact ⟨d, now, drafted, hcreated, hserved⟩

end Run

/-- Call `i` is one of those who, with the key of a secret, are at it after the scene was `v`. -/
def Contends (s : Service) (v w : Scene Memory) (wanted : Secret) (id : String) (i : Nat) : Prop :=
  ∃ op passphrase rest, w.courses[i]? = some ⟨op, rest⟩ ∧ op.Takes id passphrase ∧
    s.keyFor passphrase = s.keyFor wanted.passphrase ∧ ∀ op o, ¬ v.Returned i op o

/-- A race for a secret: call `k` has created it and no one has taken it when the scene is `v`; until
it is `w`, nothing fails, the expiry is not reached, and all who contend for it return. Others may
try, with keys under which its token does not open. -/
structure Race (s : Service) (before after : List Event) (v w : Scene Memory) (k : Nat) (chance : Chance)
    (wanted created : Secret) : Prop where
  first : Run Memory.store s (quiet .empty) before v
  second : Run Memory.store s v after w
  issued : v.Returned k (.create chance wanted) (.created (.ok created))
  unredeemed : ∀ i, ¬ v.Took i created.id
  faultless : ∀ e ∈ before ++ after, ¬ e.IsFault
  unexpired : ∀ e ∈ before ++ after, ∀ now, e.time? = some now →
    ∀ t, created.expiresAt = some t → t.notAfter now = false
  locked : ∀ (i : Nat) (op : Operation) (rest : Call Outcome) (passphrase : Option String),
    w.courses[i]? = some ⟨op, rest⟩ → op.Takes created.id passphrase →
    s.keyFor passphrase = s.keyFor wanted.passphrase ∨
      Crypto.Shut chance.nonce (Crypto.utf8 wanted.value) (s.keyFor wanted.passphrase)
        (s.keyFor passphrase)
  entered : ∃ i, Contends s v w wanted created.id i
  complete : ∀ i, Contends s v w wanted created.id i → ∃ op o, w.Returned i op o

namespace Race

variable {before after : List Event} {k : Nat} {chance : Chance} {wanted created : Secret}

theorem run (race : Race s before after v w k chance wanted created) :
    Run Memory.store s (quiet .empty) (before ++ after) w := race.first.append race.second

/-- The secret of a race is one record: whoever looks it up finds this record, and it stays as long
as no removal of it is acknowledged. -/
theorem record (race : Race s before after v w k chance wanted created)
    (fresh : w.Fresh fun random => (Uuid.ofRandom random).text) :
    ∃ d, Drafted s chance wanted d ∧ created = shell d.record ∧
      (∀ i now r, .served i now (.find created.id) (.ok r) ∈ before ++ after → r = d.record) ∧
      (removals (before ++ after) created.id = 0 → ∀ a b u, after = a ++ b →
        Run Memory.store s (quiet .empty) (before ++ a) u → u.state.find? created.id = some d.record) := by
  obtain ⟨d, now, drafted, hcreated, hinsert⟩ := race.first.issued_record race.issued
  obtain ⟨front, back, hbefore⟩ := List.append_of_mem hinsert
  have hid : created.id = d.record.id := by rw [hcreated]; rfl
  refine ⟨d, drafted, hcreated, ?_, ?_⟩
  · intro i t r hr
    obtain ⟨d', hd', rfl, hd'id⟩ := race.run.found_record hr
    have hd : d ∈ drafts (before ++ after) :=
      List.mem_filterMap.2 ⟨_, List.mem_append_left _ hinsert, rfl⟩
    rw [race.run.draft_unique fresh hd' hd (hd'id.trans hid)]
  · rintro hremovals a b u rfl hu
    rw [hbefore, List.append_assoc, List.cons_append] at hu
    obtain ⟨u₀, u₁, -, hrest, -, hmemory⟩ := hu.reply_eq
    have hfind : u₁.state.find? d.record.id = some d.record := by
      rw [hmemory]
      exact Memory.find?_insert_self _ _
    have hmem : ∀ e ∈ back ++ a, e ∈ before ++ (a ++ b) := by
      intro e he
      rw [hbefore]
      rcases List.mem_append.1 he with he | he <;> simp [he]
    rw [hid]
    refine hrest.stays hfind (fun e he => race.faultless e (hmem e he)) ?_ ?_ ?_
    · intro e he now hnow
      refine race.unexpired e (hmem e he) now hnow _ ?_
      rw [hcreated]
      rfl
    · -- The one request for the record has been made before.
      have hone := race.run.requests_le_one fresh d.record.id
      have hinsert : requests [.served k now (.insert d) (.ok d.record)]
          d.record.id = 1 := by
        simp [requests, drafts, Event.draft?, Draft.identifier, Draft.record]
      rw [hbefore, ← List.singleton_append, requests_append, requests_append, requests_append,
        requests_append] at hone
      rw [requests_append]
      omega
    · rw [← hid]
      rw [hbefore, ← List.singleton_append, removals_append, removals_append, removals_append,
        removals_append] at hremovals
      rw [removals_append]
      omega

/-- In a race, what the store has answered to a call was served. -/
theorem served (race : Race s before after v w k chance wanted created) {trace : List Event}
    (htrace : ∀ e ∈ trace, e ∈ before ++ after) {i : Nat} {c : Command} {reply : c.Reply}
    (h : (⟨.store c, reply⟩ : Exchange) ∈ exchanges i trace) : ∃ now, .served i now c reply ∈ trace := by
  rcases exists_event_of_mem h with h | ⟨f, -, hf⟩
  · exact h
  · exact absurd trivial (race.faultless _ (htrace _ hf))

/-- The reply to a question after the start of a race comes out of a memory after that start. -/
theorem reply_eq (race : Race s before after v w k chance wanted created) {i : Nat} {now : Instant}
    {c : Command} {reply : c.Reply} (h : .served i now c reply ∈ after) :
    ∃ a b u, after = a ++ b ∧ Run Memory.store s (quiet .empty) (before ++ a) u ∧
      reply = (Memory.store now c u.state).1 := by
  obtain ⟨a, b, hafter⟩ := List.append_of_mem h
  have hrun := race.run
  rw [hafter, ← List.append_assoc] at hrun
  obtain ⟨u, -, hu, -, hreply, -⟩ := hrun.reply_eq
  exact ⟨a, _, u, hafter, hu, hreply⟩

/-- In a race, a record that was looked up has not expired when its finder reads the clock. -/
theorem not_expired (race : Race s before after v w k chance wanted created) {d : Draft}
    (hcreated : created = shell d.record) {i : Nat} {now : Instant}
    (h : .read i now ∈ before ++ after) : d.record.isExpired now = false := by
  refine race.unexpired _ h now rfl _ ?_
  rw [hcreated]
  rfl

/-- Whoever contends and has not taken the secret is told that there is none. -/
theorem lost (race : Race s before after v w k chance wanted created)
    (fresh : w.Fresh fun random => (Uuid.ofRandom random).text) {i : Nat}
    (contends : Contends s v w wanted created.id i) (failed : ¬ w.Took i created.id) :
    ∃ op o, w.Returned i op o ∧ o.failure? = some .secretNotFound := by
  obtain ⟨d, drafted, -, hrecord, -⟩ := race.record fresh
  obtain ⟨op, o, returned⟩ := race.complete i contends
  obtain ⟨op', passphrase, rest, hc, takes, hkey, -⟩ := contends
  obtain ⟨rfl, rfl⟩ := Course.mk.inj (Option.some.inj (hc.symm.trans returned))
  refine ⟨op', o, returned, ?_⟩
  have whole : ∀ e ∈ before ++ after, e ∈ before ++ after := fun _ he => he
  have answered : ∀ {c : Command} {reply : c.Reply},
      (⟨.store c, reply⟩ : Exchange) ∈ exchanges i (before ++ after) →
      ∃ now u, reply = (Memory.store now c u).1 := by
    intro c reply h
    obtain ⟨now, hserved⟩ := race.served whole h
    obtain ⟨a, b, htrace⟩ := List.append_of_mem hserved
    have hrun := race.run
    rw [htrace] at hrun
    obtain ⟨u, -, -, -, hreply, -⟩ := hrun.reply_eq
    exact ⟨now, u.state, hreply⟩
  obtain ⟨a, htaking, ⟨secret, rfl, ok, -⟩ | ⟨f, rfl, hf⟩⟩ := race.run.taking returned takes
  · exact absurd ⟨op', passphrase, o, takes, returned, ok⟩ failed
  · rw [hf]
    generalize hl : exchanges i (before ++ after) = l at htaking
    cases htaking with
    | missing =>
      obtain ⟨now, u, hreply⟩ := answered (by rw [hl]; exact List.mem_singleton.2 rfl)
      rw [(Memory.eq_secretNotFound_of_store_find hreply.symm).1]
    | expired => rfl
    | @refused r now _ hlive hopen =>
      have hfind : (⟨.store (.find created.id), (.ok r : (Command.find created.id).Reply)⟩ :
          Exchange) ∈ exchanges i (before ++ after) := by rw [hl]; exact List.mem_cons_self
      obtain ⟨t, hserved⟩ := race.served whole hfind
      obtain ⟨secret, hsecret⟩ := drafted.reveal hkey
      rw [hrecord i t r hserved, hsecret] at hopen
      exact absurd hopen (by simp)
    | beaten _ hlive hopen =>
      have hremove : (⟨.store (.remove created.id), (.error f : (Command.remove created.id).Reply)⟩ :
          Exchange) ∈ exchanges i (before ++ after) := by rw [hl]; simp
      obtain ⟨now, u, hreply⟩ := answered hremove
      rw [Memory.store_remove] at hreply
      split at hreply
      · rw [Except.error.inj hreply]
      · exact absurd hreply (by simp)

/-- Not all who contend are told that there is no secret: some removal is acknowledged, for else the
record would be there for the first of them. -/
theorem removals_ne_zero (race : Race s before after v w k chance wanted created)
    (fresh : w.Fresh fun random => (Uuid.ofRandom random).text) :
    removals (before ++ after) created.id ≠ 0 := by
  intro hremovals
  obtain ⟨d, drafted, hcreated, hrecord, hstays⟩ := race.record fresh
  have stays := hstays hremovals
  obtain ⟨i, contends⟩ := race.entered
  obtain ⟨op, o, returned⟩ := race.complete i contends
  obtain ⟨op', passphrase, rest, hc, takes, hkey, hpending⟩ := contends
  obtain ⟨rfl, rfl⟩ := Course.mk.inj (Option.some.inj (hc.symm.trans returned))
  have whole : ∀ e ∈ before ++ after, e ∈ before ++ after := fun _ he => he
  have behind : ∀ e ∈ after, e ∈ before ++ after := fun _ he => List.mem_append_right _ he
  obtain ⟨a, htaking, -⟩ := race.run.taking returned takes
  have last := fun (front : List Exchange) (x : Exchange) (hx : exchanges i (before ++ after) =
    front ++ [x]) => race.first.last_after race.second returned hpending hx
  have found : ∀ {r : Record}, (⟨.store (.find created.id),
      (.ok r : (Command.find created.id).Reply)⟩ : Exchange) ∈ exchanges i (before ++ after) →
      r = d.record := by
    intro r h
    obtain ⟨t, hserved⟩ := race.served whole h
    exact hrecord i t r hserved
  generalize hl : exchanges i (before ++ after) = l at htaking
  cases htaking with
  | missing f =>
    obtain ⟨now, hserved⟩ := race.served behind (last [] _ hl)
    obtain ⟨x, y, u, hafter, hu, hreply⟩ := race.reply_eq hserved
    rw [Memory.store_find_of_some (stays x y u hafter hu)] at hreply
    exact absurd hreply (by simp)
  | @expired r now reply hexp =>
    obtain rfl := found (by rw [hl]; exact List.mem_cons_self)
    have hread : .read i now ∈ before ++ after := exists_read_of_mem (by rw [hl]; simp)
    rw [race.not_expired hcreated hread] at hexp
    exact absurd hexp (by simp)
  | @refused r now f hlive hopen =>
    obtain rfl := found (by rw [hl]; exact List.mem_cons_self)
    obtain ⟨secret, hsecret⟩ := drafted.reveal hkey
    rw [hsecret] at hopen
    exact absurd hopen (by simp)
  | @beaten r now secret f hlive hopen =>
    obtain ⟨t, hserved⟩ := race.served behind
      (last [⟨.store (.find created.id), .ok r⟩, ⟨.now, now⟩] _ hl)
    obtain ⟨x, y, u, hafter, hu, hreply⟩ := race.reply_eq hserved
    rw [Memory.store_remove, if_neg (by rw [stays x y u hafter hu]; simp)] at hreply
    exact absurd hreply (by simp)
  | taken hlive hopen =>
    have hremove : (⟨.store (.remove created.id), (.ok () : (Command.remove created.id).Reply)⟩ :
        Exchange) ∈ exchanges i (before ++ after) := by rw [hl]; simp
    obtain ⟨t, hserved⟩ := race.served whole hremove
    have hzero := List.countP_eq_zero.1 hremovals _ hserved
    exact hzero (beq_self_eq_true created.id)

/-- Someone who contends takes the secret. -/
theorem won (race : Race s before after v w k chance wanted created)
    (fresh : w.Fresh fun random => (Uuid.ofRandom random).text) :
    ∃ i, Contends s v w wanted created.id i ∧ w.Took i created.id := by
  obtain ⟨d, drafted, hcreated, hrecord, -⟩ := race.record fresh
  obtain ⟨e, he, hremoves⟩ := List.countP_pos_iff.1 (Nat.pos_of_ne_zero (race.removals_ne_zero fresh))
  match e, hremoves with
  | .served j now (.remove id) (.ok ()), hremoves =>
    obtain rfl : id = created.id := beq_iff_eq.1 hremoves
    obtain ⟨op, passphrase, r, t, takes, hfind, hread, hcase⟩ := race.run.took_of_removed he
    obtain ⟨t', hserved⟩ := race.served (fun _ he => he) hfind
    obtain rfl := hrecord j t' r hserved
    rcases hcase with hexp | ⟨o, secret, returned, ok, hopen⟩
    · rw [race.not_expired hcreated hread] at hexp
      exact absurd hexp (by simp)
    · have took : w.Took j created.id := ⟨op, passphrase, o, takes, returned, ok⟩
      refine ⟨j, ⟨op, passphrase, _, returned, takes, ?_, ?_⟩, took⟩
      · rcases race.locked j op _ passphrase returned takes with hkey | shut
        · exact hkey
        · -- The record opened, so the key is not one of those that do not fit.
          obtain ⟨f, hf⟩ := shut d.value drafted.sealed
          unfold Repository.reveal Draft.record at hopen
          simp only [hf] at hopen
          exact absurd hopen (by simp)
      · intro op' o' hv
        have hw := race.second.returned_stays hv
        obtain ⟨rfl, ho⟩ := Course.mk.inj (Option.some.inj (hw.symm.trans returned))
        obtain rfl := Dialogue.done.inj ho
        exact race.unredeemed j ⟨op', passphrase, o', takes, hv, ok⟩

end Race

/-- Burning after reading, with any number of calls side by side and any failures between them. One
take per identifier succeeds at most; it does so only after the store has acknowledged to it that the
record it has opened was removed; and what a redemption gives out is what its key makes of the token of
the creation under this identifier, which is the plaintext if the keys have the same cipher key. In a
race, one of those who contend takes the secret, and all others are told that there is none. -/
theorem redeemed_once (run : Run Memory.store s (quiet .empty) trace w)
    (fresh : w.Fresh fun random => (Uuid.ofRandom random).text) :
    (∀ i j id, w.Took i id → w.Took j id → i = j) ∧
    (∀ i op id passphrase o, op.Takes id passphrase → w.Returned i op o → o.Succeeds →
      ∃ before after now v r secret,
        trace = before ++ .served i now (.remove id) (.ok ()) :: after ∧
        Run Memory.store s (quiet .empty) before v ∧ v.state.find? id = some r ∧
        Repository.reveal r (s.keyFor passphrase) = .ok secret ∧
        (op = .get id passphrase → o = .redeemed (.ok secret))) ∧
    (∀ i id passphrase secret, w.Returned i (.get id passphrase) (.redeemed (.ok secret)) →
      secret.id = id ∧ ∃ (k : Nat) (chance : Chance) (wanted : Secret) (rest : Call Outcome),
        w.courses[k]? = some ⟨.create chance wanted, rest⟩ ∧ chance.identifier = id ∧
        Crypto.opening chance.nonce (Crypto.utf8 wanted.value) (s.keyFor wanted.passphrase)
          (s.keyFor passphrase) = .ok (Crypto.utf8 secret.value) ∧
        (Crypto.cipherKey (s.keyFor passphrase) = Crypto.cipherKey (s.keyFor wanted.passphrase) →
          secret.value = wanted.value)) ∧
    (∀ before after v k chance wanted created, trace = before ++ after →
      Race s before after v w k chance wanted created →
      ∃ i, Contends s v w wanted created.id i ∧ w.Took i created.id ∧
        ∀ j, Contends s v w wanted created.id j → j ≠ i →
          ∃ op o, w.Returned j op o ∧ o.failure? = some .secretNotFound) := by
  have unique : ∀ i j id, w.Took i id → w.Took j id → i = j := by
    rintro i j id ⟨op, passphrase, o, takes, returned, ok⟩ ⟨op', passphrase', o', takes', returned', ok'⟩
    obtain ⟨now, -, -, hi, -⟩ := run.taken returned takes ok
    obtain ⟨now', -, -, hj, -⟩ := run.taken returned' takes' ok'
    exact run.removed_unique fresh hi hj
  refine ⟨unique, ?_, ?_, ?_⟩
  · intro i op id passphrase o takes returned ok
    obtain ⟨now, r, secret, hserved, ⟨d, hd, rfl, hid⟩, hopen, hget⟩ := run.taken returned takes ok
    obtain ⟨before, after, rfl⟩ := List.append_of_mem hserved
    obtain ⟨v, -, hv, -, hreply, -⟩ := run.reply_eq
    refine ⟨before, after, now, v, d.record, secret, rfl, hv, ?_, hopen, hget⟩
    -- The record that is removed is the one that was opened, for the identifier is fresh.
    rw [Memory.store_remove] at hreply
    split at hreply
    · exact absurd hreply (by simp)
    rename_i hsome
    obtain ⟨r, hr⟩ := Option.ne_none_iff_exists'.1 hsome
    obtain ⟨d', hd', rfl⟩ := hv.origin.1 r (List.mem_of_find?_eq_some hr)
    have hmem : d' ∈ drafts (before ++ .served i now (.remove id) (.ok ()) :: after) := by
      unfold drafts at hd' ⊢
      rw [List.filterMap_append]
      exact List.mem_append_left _ hd'
    rw [hr, run.draft_unique fresh hmem hd ((Memory.id_of_find? hr).trans hid.symm)]
  · intro i id passphrase secret returned
    obtain ⟨now, r, secret', -, ⟨d, hd, rfl, hid⟩, hopen, hget⟩ :=
      run.taken returned (Or.inl rfl) rfl
    obtain rfl := Except.ok.inj (Outcome.redeemed.inj (hget rfl))
    refine ⟨(Repository.id_of_reveal hopen).trans hid, ?_⟩
    obtain ⟨e, he, hed⟩ := List.mem_filterMap.1 hd
    obtain ⟨k, chance, wanted, rest, hk, drafted, -⟩ := run.creation he hed
    refine ⟨k, chance, wanted, rest, hk, drafted.identifier_eq.symm.trans hid,
      drafted.opening_of_reveal hopen, fun hkey => ?_⟩
    exact drafted.value_of_reveal (Crypto.authentic_of_cipherKey_eq hkey) hopen
  · rintro before after v k chance wanted created - race
    obtain ⟨i, contends, took⟩ := race.won fresh
    refine ⟨i, contends, took, fun j hj hne => race.lost fresh hj fun hjtook => hne ?_⟩
    exact unique j i created.id hjtook took

/-- Two readers of one secret, side by side: one reads it, the other is told that there is none. -/
theorem redeemed_once_of_two_readers :
    ∃ (w : Scene Memory) (id : String) (i j : Nat) (op : Operation) (o : Outcome),
      w.Took i id ∧ i ≠ j ∧ w.Returned j op o ∧ o.failure? = some .secretNotFound := by
  let s : Service := ⟨"service key", ⟨0⟩⟩
  let chance : Chance := ⟨Vector.replicate 12 0, 0⟩
  let wanted : Secret := { value := "attack at dawn", expiresAt := some ⟨100, 0⟩ }
  let now : Instant := ⟨50, 0⟩
  have haccept : s.accept wanted now = .ok ⟨100, 0⟩ :=
    accept_eq_ok_iff.2 ⟨checkValue_eq_ok_iff.2 (by decide), rfl⟩
  obtain ⟨⟨token, _, random⟩, hdraft, rfl⟩ := exists_draft chance haccept
  let r : Record := Draft.record ⟨token, ⟨100, 0⟩, random⟩
  let create : Operation := .create chance wanted
  let v : Scene Memory := ⟨Memory.empty.insert r, [⟨create, .done (.created (.ok (shell r)))⟩], []⟩
  have hstored : Memory.store now (.insert ⟨token, ⟨100, 0⟩, random⟩) .empty = (.ok r, v.state) := rfl
  obtain ⟨before, first, hbefore⟩ := Run.create_alone hdraft hstored
  -- Both readers have begun before one of them goes on.
  let get : Operation := .get (shell r).id none
  let u : Scene Memory := ⟨v.state, [⟨create, .done (.created (.ok (shell r)))⟩, ⟨get, get.call s⟩,
    ⟨get, get.call s⟩], []⟩
  have begun : Run Memory.store s v [.started get, .started get] u :=
    ((Run.refl v).tail (.start v get)).tail (.start _ get)
  obtain ⟨back, hback, hquiet⟩ := Run.alone Memory.store s now (v := u) (i := 1) rfl
  generalize (get.call s).run (Memory.store.answer now) u.state = p at hback
  obtain ⟨o, m⟩ := p
  obtain ⟨last, hlast, hquiet'⟩ := Run.alone Memory.store s now (i := 2)
    (v := ⟨m, [⟨create, .done (.created (.ok (shell r)))⟩, ⟨get, .done o⟩, ⟨get, get.call s⟩], []⟩) rfl
  generalize (get.call s).run (Memory.store.answer now) m = p at hlast
  obtain ⟨o', m'⟩ := p
  let w : Scene Memory :=
    ⟨m', [⟨create, .done (.created (.ok (shell r)))⟩, ⟨get, .done o⟩, ⟨get, .done o'⟩], []⟩
  have second : Run Memory.store s v ([.started get, .started get] ++ (back ++ last)) w :=
    begun.append (hback.append hlast)
  have readers : ∀ (i : Nat) (op : Operation) (rest : Call Outcome) (passphrase : Option String),
      w.courses[i]? = some ⟨op, rest⟩ → op.Takes (shell r).id passphrase →
      passphrase = none ∧ ∃ op o, w.Returned i op o := by
    intro i op rest passphrase h takes
    match i, h with
    | 0, h =>
      obtain rfl : create = op := congrArg Course.operation (Option.some.inj h)
      rcases takes with h | h <;> exact absurd h (by simp [create])
    | 1, h | 2, h =>
      obtain rfl : get = op := congrArg Course.operation (Option.some.inj h)
      rcases takes with h | h
      · exact ⟨(Operation.get.inj h).2.symm, _, _, rfl⟩
      · exact absurd h (by simp [get])
  have fresh : w.Fresh fun random => (Uuid.ofRandom random).text := by
    refine fresh_of_creator (k := 0) fun i chance' wanted' rest h => ?_
    match i, h with
    | 0, _ => rfl
    | 1, h | 2, h => exact absurd (congrArg Course.operation (Option.some.inj h)) (by simp [get])
  have quietly : ∀ e ∈ before ++ ([.started get, .started get] ++ (back ++ last)),
      ¬ e.IsFault ∧ ∀ t, e.time? = some t → t = now := by
    intro e he
    simp only [List.mem_append, List.mem_cons, List.not_mem_nil, or_false] at he
    rcases he with he | (rfl | rfl) | he | he
    · exact hbefore e he
    · exact ⟨id, fun t ht => absurd ht (by simp [Event.time?])⟩
    · exact ⟨id, fun t ht => absurd ht (by simp [Event.time?])⟩
    · exact hquiet e he
    · exact hquiet' e he
  have contending : ∀ i, i = 1 ∨ i = 2 → Contends s v w wanted (shell r).id i := by
    rintro i (rfl | rfl) <;>
      exact ⟨get, none, _, rfl, Or.inl rfl, rfl, fun op o h => absurd h (by simp [Scene.Returned, v])⟩
  have race : Race s before ([.started get, .started get] ++ (back ++ last)) v w 0 chance wanted
      (shell r) := by
    refine ⟨first, second, rfl, ?_, fun e he => (quietly e he).1, ?_, ?_, ⟨1, contending 1 (by simp)⟩, ?_⟩
    · rintro (_ | i) ⟨op, passphrase, o, takes, returned, -⟩
      · obtain rfl : create = op := congrArg Course.operation (Option.some.inj returned)
        rcases takes with h | h <;> exact absurd h (by simp [create])
      · exact absurd returned (by simp [Scene.Returned, v])
    · intro e he t ht u hu
      rw [(quietly e he).2 t ht, ← Option.some.inj hu]
      exact (by decide : (⟨100, 0⟩ : Instant).notAfter ⟨50, 0⟩ = false)
    · intro i op rest passphrase h takes
      rw [(readers i op rest passphrase h takes).1]
      exact Or.inl rfl
    · rintro i ⟨op, passphrase, rest, h, takes, -⟩
      exact (readers i op rest passphrase h takes).2
  obtain ⟨-, -, -, hrace⟩ := redeemed_once (first.append second) fresh
  obtain ⟨i, -, took, others⟩ := hrace _ _ v 0 chance wanted (shell r) rfl race
  by_cases hi : i = 1
  · obtain ⟨op, o, returned, hf⟩ := others 2 (contending 2 (by simp)) (by omega)
    exact ⟨w, (shell r).id, i, 2, op, o, took, by omega, returned, hf⟩
  · obtain ⟨op, o, returned, hf⟩ := others 1 (contending 1 (by simp)) (fun h => hi h.symm)
    exact ⟨w, (shell r).id, i, 1, op, o, took, hi, returned, hf⟩

/-- One who comes alone, before the secret expires, gets what his key brings out of its token. -/
theorem Run.redeem_alone {s : Service} {now t : Instant} {chance : Chance} {wanted : Secret}
    {passphrase : Option String} {value : String} (haccept : s.accept wanted now = .ok t)
    (hlive : t.notAfter now = false)
    (hread : Deposit.read? ⟨wanted.value, s.keyFor wanted.passphrase, t⟩ chance.nonce
      (s.keyFor passphrase) = some value) :
    ∃ trace w, Run Memory.store s (quiet .empty) trace w ∧
      (w.Fresh fun random => (Uuid.ofRandom random).text) ∧ (∀ e ∈ trace, ¬ e.IsFault) ∧
      w.Returned 0 (.create chance wanted)
        (.created (.ok { id := chance.identifier, expiresAt := some t })) ∧
      w.Returned 1 (.get chance.identifier passphrase)
        (.redeemed (.ok { id := chance.identifier, value := value, expiresAt := some t })) := by
  obtain ⟨d, hdraft, rfl⟩ := exists_draft chance haccept
  obtain ⟨-, hrandom, hsealed, -⟩ := draft_eq_ok hdraft
  have hid : d.record.id = chance.identifier := by
    rw [Draft.record, hrandom, Chance.identifier]
  let m : Memory := Memory.empty.insert d.record
  let created : Course := ⟨.create chance wanted, .done (.created (.ok (shell d.record)))⟩
  let get : Operation := .get chance.identifier passphrase
  let v : Scene Memory := ⟨m, [created], []⟩
  have hstored : Memory.store now (.insert d) .empty = (.ok d.record, m) := rfl
  obtain ⟨front, hfront, hquiet⟩ := Run.create_alone hdraft hstored
  have begun : Run Memory.store s v [.started get] ⟨m, [created, ⟨get, get.call s⟩], []⟩ :=
    (Run.refl v).tail (.start v get)
  obtain ⟨back, hback, hquiet'⟩ := Run.alone Memory.store s now (i := 1)
    (v := ⟨m, [created, ⟨get, get.call s⟩], []⟩) rfl
  -- What is answered to the reader.
  have hfound : answerFind m.records chance.identifier = .ok d.record := by
    have hsome : m.records.find? (·.id == d.record.id) = some d.record := Memory.find?_insert_self _ _
    rw [answerFind, ← hid, hsome]
  have hunexpired : d.record.isExpired now = false := hlive
  have hreveal := Repository.reveal_eq (r := d.record)
    (d := ⟨wanted.value, s.keyFor wanted.passphrase, d.expiresAt⟩) hsealed (s.keyFor passphrase)
  rw [hread, hid] at hreveal
  have hget : (get.call s).run (Memory.store.answer now) m =
      (.redeemed (.ok { id := chance.identifier, value := value, expiresAt := some d.expiresAt }),
        m.erase chance.identifier) := by
    change s.perform Memory.store now get m = _
    rw [perform_get, Service.get, run_take_memory, hfound, judge_of_opened s _ hunexpired hreveal]
    rfl
  rw [hget] at hback
  refine ⟨_, _, hfront.append (begun.append hback), ?_, ?_, ?_, rfl⟩
  · refine fresh_of_creator (k := 0) fun i chance' wanted' rest h => ?_
    rcases i with _ | _ | i
    · rfl
    · exact absurd (congrArg Course.operation (Option.some.inj h)) (by simp [get])
    · cases h
  · intro e he
    simp only [List.mem_append, List.mem_cons, List.not_mem_nil, or_false] at he
    rcases he with he | rfl | he
    · exact (hquiet e he).1
    · exact id
    · exact (hquiet' e he).1
  · rw [← hid]
    rfl

/-- A secret that was sealed under one key and is redeemed under another, as something else. -/
theorem redeemed_under_other_key :
    let s : Service := ⟨"service key", ⟨0⟩⟩
    let chance : Chance := ⟨Crypto.TwoKeys.nonce, 0⟩
    let wanted : Secret :=
      { value := Crypto.TwoKeys.alphaText, passphrase := some "alpha", expiresAt := some ⟨100, 0⟩ }
    let secret : Secret :=
      { id := chance.identifier, value := Crypto.TwoKeys.bravoText, expiresAt := some ⟨100, 0⟩ }
    secret.value ≠ wanted.value ∧
      ∃ trace w, Run Memory.store s (quiet .empty) trace w ∧
        (w.Fresh fun random => (Uuid.ofRandom random).text) ∧ (∀ e ∈ trace, ¬ e.IsFault) ∧
        w.Returned 0 (.create chance wanted)
          (.created (.ok { id := chance.identifier, expiresAt := some ⟨100, 0⟩ })) ∧
        w.Returned 1 (.get chance.identifier (some "bravo")) (.redeemed (.ok secret)) := by
  intro s chance wanted secret
  have haccept : s.accept wanted ⟨50, 0⟩ = .ok ⟨100, 0⟩ :=
    accept_eq_ok_iff.2 ⟨checkValue_eq_ok_iff.2 (by decide), rfl⟩
  exact ⟨by decide, Run.redeem_alone haccept (by decide) (Deposit.read?_of_two_keys ⟨100, 0⟩)⟩

end Scene

end Concurrency

end BurnAfterRead
