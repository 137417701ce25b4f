import BurnAfterRead.Proofs.Service.Sweeping

/-!
# What was stored can be had

From the creation of a secret until its expiry, every store gives its record out: sweeps spare it,
other secrets have nothing to do with it, and those who cannot open it leave it. Only the key-value
server may drop it early, by less than two milliseconds, as it counts whole ones.
-/

namespace BurnAfterRead

/-- Who asks for a record under some of its names cannot open it. -/
def Service.Spares (s : Service) (op : Operation) (named : String → Prop) (r : Record) : Prop :=
  ∀ id passphrase, op.Takes id passphrase → named id →
    ∃ f, Repository.reveal r (s.keyFor passphrase) = .error f

/-- Of two times, the clock shows the earlier one with no more milliseconds than the later one. -/
theorem Instant.OnClock.millis_le {t u : Instant} (h : t.OnClock) (hle : t.notAfter u = true) :
    t.millis ≤ u.millis := by
  have hnanos := h.nanos
  rw [Instant.notAfter_iff] at hle
  unfold Instant.millis
  omega

theorem Record.isExpired_of_earlier {r : Record} {now now' : Instant} (hlive : r.isExpired now' = false)
    (hle : now.notAfter now' = true) : r.isExpired now = false := by
  cases hexpired : r.isExpired now with
  | false => rfl
  | true =>
    rw [Record.isExpired, Instant.notAfter_trans hexpired hle] at hlive
    cases hlive

namespace Shelving

variable {σ ε : Type} {store : Store σ} {empty : σ} {identifier : BitVec 128 → String}
  {Admits : Instant → Prop} {K : Shelving store empty identifier Admits ε} {s : Service}
  {now : Instant} {st : σ} {es : List ε} {e : ε} {r : Record}

/-- One operation after another, a store keeps entries. -/
theorem keeps_perform (h : K.Keeps st es) {op : Operation} {rest : List (Instant × Operation)}
    (orderly : s.Orderly identifier Admits ((now, op) :: rest)) (unused : K.Unused ((now, op) :: rest) es) :
    K.Keeps (s.perform store now op st).2 (K.after s now es op) := by
  cases hsweep : op.isSweep with
  | true =>
    obtain rfl := Operation.eq_deleteExpired hsweep
    rw [s.perform_deleteExpired]
    exact K.sweep h (orderly.onClock _ List.mem_cons_self)
  | false =>
    have htrails : K.Trails now es st st := ⟨h, es, h, .refl _ es⟩
    exact (htrails.perform s hsweep orderly.fits fun chance hchance => unused.names_chance hchance).2.keeps

theorem found_of_mem (h : K.Keeps st es) (he : e ∈ es) {id : String} (hnames : K.names id e = true) :
    K.found es id = K.read e := by
  have hfind : es.find? (K.names id) = some e := by
    cases hfind : es.find? (K.names id) with
    | none => exact absurd hnames (List.find?_eq_none.1 hfind e he)
    | some x =>
      rw [K.unique h x (List.mem_of_find?_eq_some hfind) e he (List.find?_some hfind) hnames]
  unfold found
  rw [hfind]
  rfl

/-- An entry that is there can be had. -/
theorem lends (h : K.Keeps st es) (he : e ∈ es) {id : String} (hnames : K.names id e = true)
    (hread : K.read e = .ok r) : store.Lends now st id r := by
  have hfound := (found_of_mem h he hnames).trans hread
  have hfind : store now (.find id) st = (K.found es id, st) := K.find h now id
  refine ⟨(congrArg Prod.fst hfind).trans hfound, ?_⟩
  rw [hfind]
  exact remove_of_found h hfound

/-- An entry stays if its record has not expired and the operation spares it. -/
theorem mem_after_of_spares (h : K.Keeps st es) (he : e ∈ es) (hread : K.read e = .ok r)
    (hlive : r.isExpired now = false) (hclock : now.OnClock) {op : Operation}
    (hspares : s.Spares op (fun id => K.names id e = true) r) : e ∈ K.after s now es op := by
  have take : ∀ id passphrase, op.Takes id passphrase → e ∈ K.afterTake s now es id passphrase := by
    intro id passphrase htakes
    unfold afterTake
    split
    · rename_i hremoves
      refine List.mem_filter.2 ⟨he, ?_⟩
      by_contra hnames
      obtain ⟨f, hshut⟩ := hspares id passphrase htakes (by simpa using hnames)
      rw [found_of_mem h he (by simpa using hnames), hread, s.judge_of_refused passphrase hlive hshut]
        at hremoves
      cases hremoves
    · exact he
  cases op with
  | create chance wanted =>
    change e ∈ K.afterCreate s now es chance wanted
    unfold afterCreate
    split
    · exact List.mem_append_left _ he
    · exact he
  | get id passphrase => exact take id passphrase (Or.inl rfl)
  | delete id passphrase => exact take id passphrase (Or.inr rfl)
  | deleteExpired =>
    refine List.mem_filter.2 ⟨he, ?_⟩
    by_contra hsweeps
    obtain ⟨x, hx, hexpired⟩ := K.expired_of_sweeps h hclock e he (by simpa using hsweeps)
    rw [hread] at hx
    rw [Except.ok.inj hx, hexpired] at hlive
    cases hlive

/-- A run of calls leads to entries, with those that were spared among them. -/
theorem exists_keeps {calls rest : List (Instant × Operation)}
    (orderly : s.Orderly identifier Admits (calls ++ rest)) (unused : K.Unused (calls ++ rest) es)
    (h : K.Keeps st es) :
    ∃ es', K.Keeps (s.performAll store calls st).2 es' ∧ K.Unused rest es' ∧
      ∀ e ∈ es, ∀ r, K.read e = .ok r →
        (∀ call ∈ calls, r.isExpired call.1 = false ∧ s.Spares call.2 (fun id => K.names id e = true) r) →
        e ∈ es' := by
  induction calls generalizing es st with
  | nil => exact ⟨es, h, unused, fun e he _ _ _ => he⟩
  | cons call calls ih =>
    -- What the first call makes of the entries is what the induction goes on with.
    obtain ⟨now, op⟩ := call
    obtain ⟨es', hkeeps, hunused, hkept⟩ :=
      ih orderly.tail (unused.after s orderly.fresh) (keeps_perform h orderly unused)
    refine ⟨es', hkeeps, hunused, fun e he r hread hspares => hkept e ?_ r hread fun call hcall =>
      hspares call (List.mem_cons_of_mem _ hcall)⟩
    obtain ⟨hlive, hspared⟩ := hspares (now, op) List.mem_cons_self
    exact mem_after_of_spares h he hread hlive (orderly.onClock _ List.mem_cons_self) hspared

/-- A creation adds the entry of its draft to the entries of the calls before it. -/
theorem exists_keeps_created (K : Shelving store empty identifier Admits ε)
    {calls between : List (Instant × Operation)} {created : Instant} {chance : Chance} {wanted : Secret}
    {d : Draft}
    (orderly : s.Orderly identifier Admits (calls ++ (created, .create chance wanted) :: between))
    (hdraft : s.draft created chance wanted = .ok d) :
    ∃ st' es, K.Keeps st' (es ++ [K.shelve d]) ∧ K.Unused between (es ++ [K.shelve d]) ∧
      store created (.insert d) (s.performAll store calls empty).2 = (K.read (K.shelve d), st') := by
  obtain ⟨es, hkeeps, hunused, -⟩ := exists_keeps orderly (.nil _) K.keeps_empty
  have orderly' := orderly.of_append
  obtain ⟨hexpiry, drafted⟩ := Service.draft_eq_ok hdraft
  obtain ⟨hwell, hadmits⟩ := orderly'.fits chance wanted _ rfl hexpiry
  have hfresh := hunused.names_chance rfl
  rw [← drafted.random] at hfresh
  obtain ⟨st', hkeeps', hinsert⟩ := K.insert hkeeps d hwell hadmits hfresh created
  have hafter : K.after s created es (.create chance wanted) = es ++ [K.shelve d] := by
    change K.afterCreate s created es chance wanted = _
    unfold afterCreate
    rw [hdraft]
  exact ⟨st', es, hkeeps', hafter ▸ hunused.after s orderly'.fresh, hinsert⟩

theorem read_shelve_of_created (K : Shelving store empty identifier Admits ε)
    {calls between : List (Instant × Operation)} {created : Instant} {chance : Chance} {wanted : Secret}
    {d : Draft}
    (orderly : s.Orderly identifier Admits (calls ++ (created, .create chance wanted) :: between))
    (hdraft : s.draft created chance wanted = .ok d)
    (hr : (store created (.insert d) (s.performAll store calls empty).2).1 = .ok r) :
    K.read (K.shelve d) = .ok r := by
  obtain ⟨st', es, -, -, hinsert⟩ := exists_keeps_created K orderly hdraft
  exact (congrArg Prod.fst hinsert).symm.trans hr

/-- What a creation was answered can be had later, as long as it is spared. -/
theorem lends_created (K : Shelving store empty identifier Admits ε)
    {calls between : List (Instant × Operation)} {created : Instant} {chance : Chance} {wanted : Secret}
    {d : Draft}
    (orderly : s.Orderly identifier Admits (calls ++ (created, .create chance wanted) :: between))
    (hdraft : s.draft created chance wanted = .ok d)
    (hr : (store created (.insert d) (s.performAll store calls empty).2).1 = .ok r)
    {named : String → Prop} (hnamed : ∀ id, K.names id (K.shelve d) = true ↔ named id)
    (hspares : ∀ call ∈ between, r.isExpired call.1 = false ∧ s.Spares call.2 named r)
    {id : String} (hid : named id) :
    store.Lends now
      (s.performAll store between (store created (.insert d) (s.performAll store calls empty).2).2).2 id
      r := by
  have hread := K.read_shelve_of_created orderly hdraft hr
  obtain ⟨st', es, hkeeps, hunused, hinsert⟩ := exists_keeps_created K orderly hdraft
  have orderly' := orderly.of_append.tail
  rw [← List.append_nil between] at orderly' hunused
  obtain ⟨es', hkeeps', -, hkept⟩ := exists_keeps orderly' hunused hkeeps
  have hmem : K.shelve d ∈ es' :=
    hkept _ (List.mem_append_right _ List.mem_cons_self) r hread fun call hcall =>
      ⟨(hspares call hcall).1, fun id passphrase htakes hnames =>
        (hspares call hcall).2 id passphrase htakes ((hnamed id).1 hnames)⟩
  rw [hinsert]
  exact lends hkeeps' hmem ((hnamed id).2 hid) hread

end Shelving

namespace KeyValue

variable {s : Service} {now : Instant} {keys : Keys} {e : Entry} {r : Record}

/-- A key stays if it is live, its record has not expired and the operation spares it. -/
theorem find?_perform (h : keys.find? e.key = some e) (hdeadline : Keys.Entry.isLive now e = true)
    (htext : e.text = Payload.write r) (hr : r.expiresAt.WellFormed) (hlive : r.isExpired now = false)
    {op : Operation} (hfresh : ∀ chance, op.chance? = some chance → chance.identifier ≠ e.key)
    (hspares : s.Spares op (· = e.key) r) : (s.perform store now op keys).2.find? e.key = some e := by
  have hkept := find?_live h hdeadline
  have take : ∀ (id : String) (passphrase : Option String) {α : Type} (result : Secret → α),
      op.Takes id passphrase →
        ((s.take id passphrase result).run (store.answer now) keys).2.find? e.key = some e := by
    intro id passphrase α result htakes
    by_cases hid : id = e.key
    · -- The record is found, and the take is refused before it could remove it.
      obtain ⟨f, hshut⟩ := hspares id passphrase htakes hid
      have hfound := store_find_of_find? h hdeadline htext hr
      rw [hid, s.run_take_of_refused passphrase result (congrArg Prod.fst hfound) hlive hshut]
      exact hkept
    · have hstate : ((s.take id passphrase result).run (store.answer now) keys).2 =
            (store now (.find id) keys).2 ∨
          ((s.take id passphrase result).run (store.answer now) keys).2 =
            (store now (.remove id) (store now (.find id) keys).2).2 :=
        s.run_take_state passphrase result
      rcases hstate with hleft | hleft <;> rw [hleft]
      · exact hkept
      · exact find?_erase (find?_live hkept hdeadline) hid
  cases op with
  | create chance wanted =>
    rw [Service.perform_create, Service.run_create_eq]
    cases hdraft : s.draft now chance wanted with
    | error f => exact h
    | ok d =>
      have hid : d.record.id = chance.identifier := (Service.draft_eq_ok hdraft).2.identifier_eq
      have hne : d.record.id ≠ e.key := hid ▸ hfresh chance rfl
      exact find?_put hkept hne
  | get id passphrase =>
    rw [Service.perform_get]
    exact take id passphrase _ (Or.inl rfl)
  | delete id passphrase =>
    rw [Service.perform_delete]
    exact take id passphrase _ (Or.inr rfl)
  | deleteExpired =>
    rw [s.perform_deleteExpired]
    exact h

/-- A key stays through a run of calls of which each spares it. -/
theorem find?_performAll {calls : List (Instant × Operation)} (h : keys.find? e.key = some e)
    (htext : e.text = Payload.write r) (hr : r.expiresAt.WellFormed)
    (hdeadline : ∀ call ∈ calls, Keys.Entry.isLive call.1 e = true)
    (hfresh : e.key ∉ Operation.drawn (fun random => (Uuid.ofRandom random).text) calls)
    (hspares : ∀ call ∈ calls, r.isExpired call.1 = false ∧ s.Spares call.2 (· = e.key) r) :
    (s.performAll store calls keys).2.find? e.key = some e := by
  induction calls generalizing keys with
  | nil => exact h
  | cons call rest ih =>
    obtain ⟨now, op⟩ := call
    obtain ⟨hlive, hspared⟩ := hspares (now, op) List.mem_cons_self
    have hkept := find?_perform h (hdeadline (now, op) List.mem_cons_self) htext hr hlive
      (fun chance hchance hid => hfresh (List.mem_filterMap.2 ⟨(now, op), List.mem_cons_self, by
        rw [hchance, ← hid]
        rfl⟩)) hspared
    exact ih hkept (fun call hcall => hdeadline call (List.mem_cons_of_mem _ hcall))
      (fun hdrawn => hfresh (((List.sublist_cons_self _ rest).filterMap _).subset hdrawn))
      fun call hcall => hspares call (List.mem_cons_of_mem _ hcall)

/-- What a creation was answered can be had until its lifetime is over, as long as it is spared. -/
theorem lends_created {calls between : List (Instant × Operation)} {created : Instant} {chance : Chance}
    {wanted : Secret} {d : Draft} {Admits : Instant → Prop}
    (orderly : s.Orderly (fun random => (Uuid.ofRandom random).text) Admits
      (calls ++ (created, .create chance wanted) :: between))
    (hdraft : s.draft created chance wanted = .ok d)
    (hr : (store created (.insert d) keys).1 = .ok r)
    (hbefore : now.millis < created.millis + (r.expiresAt.since created).millis)
    (hspares : ∀ call ∈ between, call.1.notAfter now = true ∧ r.isExpired call.1 = false ∧
      s.Spares call.2 (· = chance.identifier) r) :
    store.Lends now (s.performAll store between (store created (.insert d) keys).2).2 chance.identifier
      r := by
  obtain rfl : d.record = r := Except.ok.inj hr
  have orderly' := orderly.of_append
  obtain ⟨hexpiry, drafted⟩ := Service.draft_eq_ok hdraft
  obtain ⟨hwell, -⟩ := orderly'.fits chance wanted _ rfl hexpiry
  have hid : d.record.id = chance.identifier := drafted.identifier_eq
  let e : Entry := ⟨d.record.id, Payload.write d.record,
    some (created.millis + Payload.lifetime d.record created)⟩
  -- The server gives the key at least the whole milliseconds of the lifetime.
  have hlive : ∀ t : Instant, t.millis ≤ now.millis → Keys.Entry.isLive t e = true := by
    intro t ht
    refine decide_eq_true ?_
    unfold Payload.lifetime
    omega
  have hfresh : e.key ∉ Operation.drawn (fun random => (Uuid.ofRandom random).text) between := by
    change d.record.id ∉ _
    rw [hid]
    exact (List.nodup_cons.1 orderly'.fresh).1
  rw [← hid] at hspares ⊢
  have hkept : (s.performAll store between (store created (.insert d) keys).2).2.find? e.key = some e :=
    find?_performAll (find?_put_self (keys.live created) e) rfl hwell
      (fun call hcall => hlive call.1 ((orderly'.tail.onClock call hcall).millis_le (hspares call hcall).1))
      hfresh fun call hcall => (hspares call hcall).2
  have hnow := hlive now (Int.le_refl _)
  have hfind := store_find_of_find? hkept hnow rfl hwell
  refine ⟨congrArg Prod.fst hfind, ?_⟩
  change (store now (.remove e.key) _).1 = _
  exact store_remove_of_find? (find?_live hkept hnow) hnow

end KeyValue

namespace Backend

/-- Whether an identifier is one of the secret with some random bits: the identifier that the store
made of them, in small or capital letters where it is an object identifier. -/
def Denotes : Backend → String → BitVec 128 → Prop
  | document, id, random => ObjectId.ofText? id = some (ObjectId.ofRandom random)
  | _, id, random => id = (Uuid.ofRandom random).text

theorem denotes_identifier (b : Backend) (random : BitVec 128) : b.Denotes (b.identifier random) random := by
  cases b with
  | document => exact ObjectId.ofText?_text_ofRandom random
  | _ => rfl

/-- What a store keeps of an expiry: the document server cuts it to milliseconds. -/
def kept : Backend → Instant → Instant
  | document, t => .ofMillis t.millis
  | _, t => t

/-- What a store keeps of a draft. -/
def record (b : Backend) (d : Draft) : Record := ⟨b.identifier d.random, d.value, b.kept d.expiresAt⟩

/-- What a creation is answered is what the store keeps. -/
theorem eq_record_of_created (b : Backend) {s : Service} {calls between : List (Instant × Operation)}
    {created : Instant} {chance : Chance} {wanted : Secret} {d : Draft} {r : Record}
    (orderly : s.Orderly b.identifier b.Admits (calls ++ (created, .create chance wanted) :: between))
    (hdraft : s.draft created chance wanted = .ok d)
    (hr : (b.store created (.insert d) (s.performAll b.store calls b.empty).2).1 = .ok r) :
    r = b.record d := by
  cases b with
  | memory => exact (Except.ok.inj (Memory.shelving.read_shelve_of_created orderly hdraft hr)).symm
  | textTable => exact (Except.ok.inj (TextTable.shelving.read_shelve_of_created orderly hdraft hr)).symm
  | keyValue => exact (Except.ok.inj hr).symm
  | document =>
    have hread : (Document.ofDraft d).toRecord = .ok r :=
      Document.shelving.read_shelve_of_created orderly hdraft hr
    unfold Document.toRecord Document.ofDraft Instant.ofMillis? at hread
    dsimp only at hread
    by_cases hrange : (Instant.ofMillis d.expiresAt.millis).inRange = true
    · rw [if_pos hrange] at hread
      exact (Except.ok.inj hread).symm
    · rw [if_neg hrange] at hread
      cases hread

/-- Whether a secret is still to be had at a time. The key-value server counts the whole milliseconds
since the creation. -/
def Outlives (b : Backend) (created expiry now : Instant) : Prop :=
  expiry.notAfter now = false ∧
    (b = keyValue → now.millis < created.millis + (expiry.since created).millis)

/-- What a creation was answered can be had until it expires, as long as no one else opens it. -/
theorem lends_created (b : Backend) {s : Service} {calls between : List (Instant × Operation)}
    {created now : Instant} {chance : Chance} {wanted : Secret} {d : Draft} {r : Record}
    (orderly : s.Orderly b.identifier b.Admits (calls ++ (created, .create chance wanted) :: between))
    (hdraft : s.draft created chance wanted = .ok d)
    (hr : (b.store created (.insert d) (s.performAll b.store calls b.empty).2).1 = .ok r)
    (hbefore : b.Outlives created r.expiresAt now)
    (hspares : ∀ call ∈ between, call.1.notAfter now = true ∧
      s.Spares call.2 (fun id => b.Denotes id chance.random) r)
    {id : String} (hid : b.Denotes id chance.random) :
    b.store.Lends now
      (s.performAll b.store between
        (b.store created (.insert d) (s.performAll b.store calls b.empty).2).2).2 id r := by
  obtain ⟨hlive, hmillis⟩ := hbefore
  have hrandom := (Service.draft_eq_ok hdraft).2.random
  have hspared : ∀ call ∈ between, r.isExpired call.1 = false ∧
      s.Spares call.2 (fun id => b.Denotes id chance.random) r := fun call hcall =>
    ⟨Record.isExpired_of_earlier hlive (hspares call hcall).1, (hspares call hcall).2⟩
  have hunique : ∀ id, (d.record.id == id) = true ↔ id = (Uuid.ofRandom chance.random).text := by
    intro id
    rw [beq_iff_eq, eq_comm, Draft.record, hrandom]
  cases b with
  | memory => exact Memory.shelving.lends_created orderly hdraft hr hunique hspared hid
  | textTable => exact TextTable.shelving.lends_created orderly hdraft hr hunique hspared hid
  | keyValue =>
    obtain rfl : id = chance.identifier := hid
    exact KeyValue.lends_created orderly hdraft hr (hmillis rfl) fun call hcall =>
      ⟨(hspares call hcall).1, hspared call hcall⟩
  | document =>
    refine Document.shelving.lends_created orderly hdraft hr (fun id => ?_) hspared hid
    change Document.goesBy id (Document.ofDraft d) = true ↔
      ObjectId.ofText? id = some (ObjectId.ofRandom chance.random)
    unfold Document.goesBy
    cases ObjectId.ofText? id with
    | none => simp
    | some oid =>
      change (some (ObjectId.ofRandom d.random) == some oid) = true ↔ _
      rw [beq_iff_eq, hrandom, eq_comm]

end Backend

end BurnAfterRead
