import BurnAfterRead.Proofs.Service.Backends

/-!
# Sweeps go unseen

Between the calls of clients, a store may be swept at any time. No client can tell, because what a
sweep takes has expired, and what has expired is answered like what is not there. Two stores run side
by side to show it, of which only one is swept: it trails the other, with the same entries less some
that have expired.
-/

namespace BurnAfterRead

namespace Operation

def isSweep : Operation → Bool
  | deleteExpired => true
  | _ => false

theorem eq_deleteExpired {op : Operation} (h : op.isSweep = true) : op = deleteExpired := by
  cases op with
  | deleteExpired => rfl
  | _ => cases h

/-- What an operation draws at random. -/
def chance? : Operation → Option Chance
  | create chance _ => some chance
  | _ => none

/-- The identifiers that some operations draw. -/
def drawn (identifier : BitVec 128 → String) (calls : List (Instant × Operation)) : List String :=
  calls.filterMap fun call => call.2.chance?.map fun chance => identifier chance.random

end Operation

/-- Whether a sweep was answered. -/
def Outcome.isSwept : Outcome → Bool
  | swept _ => true
  | _ => false

namespace Service

variable {σ : Type}

theorem isSwept_perform (s : Service) (store : Store σ) (now : Instant) (op : Operation) (st : σ) :
    (s.perform store now op st).1.isSwept = op.isSweep := by
  unfold perform
  cases op <;> simp only [Operation.call, Dialogue.run_andThen, Dialogue.run] <;> rfl

theorem perform_deleteExpired (s : Service) (store : Store σ) (now : Instant) (st : σ) :
    (s.perform store now .deleteExpired st).2 = (store now .sweep st).2 := by
  unfold perform
  simp only [Operation.call, Dialogue.run_andThen, Dialogue.run, run_deleteExpired]

section Filter

variable (s : Service) (store : Store σ) (now : Instant) (rest : List (Instant × Operation)) (st : σ)

/-- The answers to clients, from a sweep on. -/
theorem filter_performAll_sweep :
    (s.performAll store ((now, .deleteExpired) :: rest) st).1.filter (fun o => !o.isSwept) =
      (s.performAll store rest (store now .sweep st).2).1.filter fun o => !o.isSwept := by
  have hswept := s.isSwept_perform store now .deleteExpired st
  simp only [performAll]
  rw [List.filter_cons_of_neg (by simp [hswept, Operation.isSweep]), s.perform_deleteExpired]

/-- The answers to clients, from a call of a client on. -/
theorem filter_performAll_client {op : Operation} (h : op.isSweep = false) :
    (s.performAll store ((now, op) :: rest) st).1.filter (fun o => !o.isSwept) =
      (s.perform store now op st).1 ::
        (s.performAll store rest (s.perform store now op st).2).1.filter fun o => !o.isSwept := by
  have hswept := s.isSwept_perform store now op st
  simp only [performAll]
  rw [List.filter_cons_of_pos (by simp [hswept, h])]

end Filter

/-- Calls in the order of time, as the clock of a server shows it, for lifetimes that a store can cope
with. No identifier is drawn twice. -/
structure Orderly (s : Service) (identifier : BitVec 128 → String) (Admits : Instant → Prop)
    (calls : List (Instant × Operation)) : Prop where
  ordered : (calls.map (·.1)).Pairwise fun a b => a.notAfter b = true
  onClock : ∀ call ∈ calls, call.1.OnClock
  /-- Expiries that are asked for are times that exist. -/
  exist : ∀ now chance wanted t, (now, .create chance wanted) ∈ calls → wanted.expiresAt = some t →
    t.WellFormed
  admits : ∀ now chance wanted t, (now, .create chance wanted) ∈ calls → s.accept wanted now = .ok t →
    Admits t
  fresh : (Operation.drawn identifier calls).Nodup

namespace Orderly

variable {s : Service} {identifier : BitVec 128 → String} {Admits : Instant → Prop}
  {call : Instant × Operation} {calls : List (Instant × Operation)}

theorem tail (h : s.Orderly identifier Admits (call :: calls)) : s.Orderly identifier Admits calls where
  ordered := (List.pairwise_cons.1 h.ordered).2
  onClock c hc := h.onClock c (List.mem_cons_of_mem _ hc)
  exist now chance wanted t hc := h.exist now chance wanted t (List.mem_cons_of_mem _ hc)
  admits now chance wanted t hc := h.admits now chance wanted t (List.mem_cons_of_mem _ hc)
  fresh := h.fresh.sublist ((List.sublist_cons_self call calls).filterMap _)

theorem of_append {rest : List (Instant × Operation)} (h : s.Orderly identifier Admits (calls ++ rest)) :
    s.Orderly identifier Admits rest := by
  induction calls with
  | nil => exact h
  | cons call calls ih => exact ih h.tail

/-- All expiries are times that exist. -/
theorem wellFormed (h : s.Orderly identifier Admits calls) {now : Instant} {chance : Chance}
    {wanted : Secret} (hcall : (now, .create chance wanted) ∈ calls) {t : Instant}
    (haccept : s.accept wanted now = .ok t) : t.WellFormed := by
  obtain ⟨-, hexpiry⟩ := accept_eq_ok_iff.1 haccept
  unfold expiry expiryAfter at hexpiry
  cases hexplicit : wanted.expiresAt with
  | some u =>
    rw [hexplicit] at hexpiry
    obtain rfl := Except.ok.inj hexpiry
    exact h.exist now chance wanted u hcall hexplicit
  | none =>
    rw [hexplicit] at hexpiry
    dsimp only at hexpiry
    split at hexpiry
    · rename_i u hplus
      obtain rfl := Except.ok.inj hexpiry
      exact (h.onClock _ hcall).wellFormed_of_plus? hplus
    · cases hexpiry

/-- What a store is given by the first call is a time that exists, and one that it can cope with. -/
theorem fits {now : Instant} {op : Operation} (h : s.Orderly identifier Admits ((now, op) :: calls))
    (chance : Chance) (wanted : Secret) (t : Instant) (hop : op = .create chance wanted)
    (haccept : s.accept wanted now = .ok t) : t.WellFormed ∧ Admits t := by
  subst hop
  exact ⟨h.wellFormed List.mem_cons_self haccept, h.admits _ _ _ _ List.mem_cons_self haccept⟩

end Orderly

end Service

namespace Shelving

variable {σ ε : Type} {store : Store σ} {empty : σ} {identifier : BitVec 128 → String}
  {Admits : Instant → Prop} {K : Shelving store empty identifier Admits ε} {now : Instant}
  {st full thin : σ} {es es' : List ε} {id : String}

theorem keeps_remove (h : K.Keeps st es) (now : Instant) (id : String) :
    K.Keeps (store now (.remove id) st).2 (es.filter fun e => !K.names id e) := by
  obtain ⟨st', hkeeps, hremove⟩ := K.remove h now id
  rw [hremove]
  exact hkeeps

/-- What a lookup finds among some entries. -/
def found (K : Shelving store empty identifier Admits ε) (es : List ε) (id : String) :
    Except Failure Record :=
  ((es.find? (K.names id)).map K.read).getD (.error .secretNotFound)

/-- What can be found can be removed. -/
theorem remove_of_found (h : K.Keeps st es) {r : Record} (hfound : K.found es id = .ok r) :
    (store now (.remove id) st).1 = .ok () := by
  obtain ⟨st', -, hremove⟩ := K.remove h now id
  rw [hremove]
  unfold found at hfound
  cases he : es.find? (K.names id) with
  | none =>
    rw [he] at hfound
    cases hfound
  | some e =>
    have hpos : 0 < es.countP (K.names id) :=
      List.countP_pos_iff.2 ⟨e, List.mem_of_find?_eq_some he, List.find?_some he⟩
    exact if_neg (Nat.ne_of_gt hpos)

theorem run_take (h : K.Keeps st es) (s : Service) (id : String) (passphrase : Option String)
    {α : Type} (result : Secret → α) :
    (s.take id passphrase result).run (store.answer now) st =
      ((s.judge passphrase now (K.found es id)).answer.map result,
        if (s.judge passphrase now (K.found es id)).removes then (store now (.remove id) st).2
        else st) :=
  s.run_take passphrase result (K.find h now id) fun _ hfound => remove_of_found h hfound

/-- What a creation makes of the entries. -/
def afterCreate (K : Shelving store empty identifier Admits ε) (s : Service) (now : Instant)
    (es : List ε) (chance : Chance) (wanted : Secret) : List ε :=
  match s.draft now chance wanted with
  | .ok d => es ++ [K.shelve d]
  | .error _ => es

/-- What a take makes of the entries. -/
def afterTake (K : Shelving store empty identifier Admits ε) (s : Service) (now : Instant)
    (es : List ε) (id : String) (passphrase : Option String) : List ε :=
  if (s.judge passphrase now (K.found es id)).removes then es.filter fun e => !K.names id e else es

/-- What an operation makes of the entries. -/
def after (K : Shelving store empty identifier Admits ε) (s : Service) (now : Instant) (es : List ε) :
    Operation → List ε
  | .create chance wanted => K.afterCreate s now es chance wanted
  | .get id passphrase | .delete id passphrase => K.afterTake s now es id passphrase
  | .deleteExpired => es.filter fun e => !K.sweeps now e

theorem afterTake_subset (s : Service) (id : String) (passphrase : Option String) :
    K.afterTake s now es id passphrase ⊆ es := by
  unfold afterTake
  split
  · exact List.filter_sublist.subset
  · exact List.Subset.refl es

/-- No operation makes entries but of what it draws itself. -/
theorem mem_after {s : Service} {op : Operation} {e : ε} (h : e ∈ K.after s now es op) :
    e ∈ es ∨ ∃ chance d, op.chance? = some chance ∧ d.random = chance.random ∧ e = K.shelve d := by
  cases op with
  | create chance wanted =>
    change e ∈ K.afterCreate s now es chance wanted at h
    unfold afterCreate at h
    split at h
    · rename_i d hdraft
      rcases List.mem_append.1 h with h | h
      · exact Or.inl h
      · exact Or.inr ⟨chance, d, rfl, (Service.draft_eq_ok hdraft).2.random, List.mem_singleton.1 h⟩
    · exact Or.inl h
  | get id passphrase => exact Or.inl (afterTake_subset s id passphrase h)
  | delete id passphrase => exact Or.inl (afterTake_subset s id passphrase h)
  | deleteExpired => exact Or.inl (List.mem_filter.1 h).1

/-- A new entry does not go by an identifier that is yet to be drawn. -/
theorem names_shelve_of_fresh (K : Shelving store empty identifier Admits ε) {op : Operation}
    {rest : List (Instant × Operation)}
    (fresh : (Operation.drawn identifier ((now, op) :: rest)).Nodup) {chance : Chance}
    (hchance : op.chance? = some chance) {draft : Draft} (hrandom : draft.random = chance.random)
    (hid : id ∈ Operation.drawn identifier rest) : K.names id (K.shelve draft) = false := by
  have hcons : Operation.drawn identifier ((now, op) :: rest) =
      identifier chance.random :: Operation.drawn identifier rest := by
    unfold Operation.drawn
    exact List.filterMap_cons_some (by rw [hchance]; rfl)
  rw [hcons, List.nodup_cons] at fresh
  obtain ⟨call, -, hcall⟩ := List.mem_filterMap.1 hid
  obtain ⟨other, -, rfl⟩ := Option.map_eq_some_iff.1 hcall
  by_contra hnames
  have hsame := K.names_shelve other.random draft (by simpa using hnames)
  rw [hrandom] at hsame
  rw [hsame] at hid
  exact fresh.1 hid

/-- The identifiers that some calls draw are not in use. -/
def Unused (K : Shelving store empty identifier Admits ε) (calls : List (Instant × Operation))
    (es : List ε) : Prop :=
  ∀ id ∈ Operation.drawn identifier calls, ∀ e ∈ es, K.names id e = false

namespace Unused

variable {op : Operation} {rest : List (Instant × Operation)}

theorem nil (calls : List (Instant × Operation)) : K.Unused calls [] :=
  fun _ _ _ he => absurd he List.not_mem_nil

theorem names_chance (h : K.Unused ((now, op) :: rest) es) {chance : Chance}
    (hchance : op.chance? = some chance) :
    ∀ e ∈ es, K.names (identifier chance.random) e = false :=
  h _ (List.mem_filterMap.2 ⟨(now, op), List.mem_cons_self, by rw [hchance]; rfl⟩)

theorem tail (h : K.Unused ((now, op) :: rest) es) : K.Unused rest es := fun id hid =>
  h id (((List.sublist_cons_self _ rest).filterMap _).subset hid)

/-- One call after the other, the identifiers of the calls that are left stay unused. -/
theorem after (h : K.Unused ((now, op) :: rest) es) (s : Service)
    (fresh : (Operation.drawn identifier ((now, op) :: rest)).Nodup) :
    K.Unused rest (K.after s now es op) := by
  intro id hid e he
  obtain he | ⟨chance, d, hchance, hrandom, rfl⟩ := mem_after he
  · exact h.tail id hid e he
  · exact K.names_shelve_of_fresh fresh hchance hrandom hid

end Unused

namespace Trails

theorem remove (h : K.Trails now es full thin) (id : String) :
    K.Trails now (es.filter fun e => !K.names id e) (store now (.remove id) full).2
      (store now (.remove id) thin).2 := by
  obtain ⟨hfull, es', hthin, hthinned⟩ := h
  exact ⟨keeps_remove hfull now id, _, keeps_remove hthin now id, hthinned.filter _⟩

/-- A take cannot tell the store that was swept from the one that was not. -/
theorem take (h : K.Trails now es full thin) (s : Service) (id : String) (passphrase : Option String)
    {α : Type} (result : Secret → α) :
    ((s.take id passphrase result).run (store.answer now) full).1 =
        ((s.take id passphrase result).run (store.answer now) thin).1 ∧
      K.Trails now (K.afterTake s now es id passphrase)
        ((s.take id passphrase result).run (store.answer now) full).2
        ((s.take id passphrase result).run (store.answer now) thin).2 := by
  have hremoved := h.remove id
  have htrails := h
  obtain ⟨hfull, es', hthin, hthinned⟩ := h
  rw [run_take hfull, run_take hthin]
  unfold afterTake
  rcases hthinned.find? (K.unique hfull) with hsame | ⟨hnone, e, hsome, r, hread, hexpired⟩
  · have hfound : K.found es' id = K.found es id := by
      unfold found
      rw [hsame]
    rw [hfound]
    dsimp only
    split
    · exact ⟨rfl, hremoved⟩
    · exact ⟨rfl, htrails⟩
  · -- The entry is only left in the store that was not swept, and this take removes it there.
    have hgone : K.found es id = .ok r := by
      unfold found
      rw [hsome, Option.map_some, Option.getD_some, hread]
    have hmissing : K.found es' id = .error .secretNotFound := by
      unfold found
      rw [hnone]
      rfl
    have hrest : (es'.filter fun e => !K.names id e) = es' := by
      refine List.filter_eq_self.2 fun e he => ?_
      simpa using List.find?_eq_none.1 hnone e he
    have hfilter := hthinned.filter fun e => !K.names id e
    rw [hrest] at hfilter
    rw [hgone, hmissing, s.judge_of_expired passphrase hexpired]
    exact ⟨rfl, keeps_remove hfull now id, es', hthin, hfilter⟩

/-- A creation cannot tell the store that was swept from the one that was not. -/
theorem create (h : K.Trails now es full thin) (s : Service) (chance : Chance) (wanted : Secret)
    (haccept : ∀ t, s.accept wanted now = .ok t → t.WellFormed ∧ Admits t)
    (hfresh : ∀ e ∈ es, K.names (identifier chance.random) e = false) :
    ((s.create chance wanted).run (store.answer now) full).1 =
        ((s.create chance wanted).run (store.answer now) thin).1 ∧
      K.Trails now (K.afterCreate s now es chance wanted)
        ((s.create chance wanted).run (store.answer now) full).2
        ((s.create chance wanted).run (store.answer now) thin).2 := by
  rw [Service.run_create_eq, Service.run_create_eq]
  unfold afterCreate
  cases hdraft : s.draft now chance wanted with
  | error f => exact ⟨rfl, h⟩
  | ok d =>
    obtain ⟨hexpiry, drafted⟩ := Service.draft_eq_ok hdraft
    obtain ⟨hwell, hadmits⟩ := haccept _ hexpiry
    rw [← drafted.random] at hfresh
    obtain ⟨hfull, es', hthin, hthinned⟩ := h
    obtain ⟨full', hfull', hinsert⟩ := K.insert hfull d hwell hadmits hfresh now
    obtain ⟨thin', hthin', hinsert'⟩ :=
      K.insert hthin d hwell hadmits (fun e he => hfresh e (hthinned.sublist.subset he)) now
    dsimp only
    rw [hinsert, hinsert']
    exact ⟨rfl, hfull', _, hthin', hthinned.append _⟩

/-- No call of a client can tell the store that was swept from the one that was not. -/
theorem perform (h : K.Trails now es full thin) (s : Service) {op : Operation}
    (hclient : op.isSweep = false)
    (haccept : ∀ chance wanted t, op = .create chance wanted → s.accept wanted now = .ok t →
      t.WellFormed ∧ Admits t)
    (hfresh : ∀ chance, op.chance? = some chance → ∀ e ∈ es,
      K.names (identifier chance.random) e = false) :
    (s.perform store now op full).1 = (s.perform store now op thin).1 ∧
      K.Trails now (K.after s now es op) (s.perform store now op full).2
        (s.perform store now op thin).2 := by
  cases op with
  | create chance wanted =>
    obtain ⟨hanswer, htrails⟩ := h.create s chance wanted
      (fun t ht => haccept chance wanted t rfl ht) (hfresh chance rfl)
    rw [Service.perform_create, Service.perform_create, hanswer]
    exact ⟨rfl, htrails⟩
  | get id passphrase =>
    obtain ⟨hanswer, htrails⟩ := h.take s id passphrase fun secret => secret
    rw [Service.perform_get, Service.perform_get, Service.get, hanswer]
    exact ⟨rfl, htrails⟩
  | delete id passphrase =>
    obtain ⟨hanswer, htrails⟩ := h.take s id passphrase fun _ => ()
    rw [Service.perform_delete, Service.perform_delete, Service.delete, hanswer]
    exact ⟨rfl, htrails⟩
  | deleteExpired => cases hclient

/-- No client can tell a store that is swept now and then from one that never is. -/
theorem performAll {s : Service} {calls : List (Instant × Operation)}
    (orderly : s.Orderly identifier Admits calls) (unused : K.Unused calls es)
    (h : ∀ call ∈ calls, K.Trails call.1 es full thin) :
    (s.performAll store calls thin).1.filter (fun o => !o.isSwept) =
      (s.performAll store (calls.filter fun call => !call.2.isSweep) full).1 := by
  induction calls generalizing es full thin with
  | nil => rfl
  | cons call rest ih =>
    obtain ⟨now, op⟩ := call
    have hnow := h (now, op) List.mem_cons_self
    have hlater : ∀ call ∈ rest, now.notAfter call.1 = true := fun call hcall =>
      (List.pairwise_cons.1 orderly.ordered).1 call.1 (List.mem_map_of_mem hcall)
    cases hsweep : op.isSweep with
    | true =>
      obtain rfl := Operation.eq_deleteExpired hsweep
      have hclock := orderly.onClock _ List.mem_cons_self
      rw [List.filter_cons_of_neg (by simp [hsweep]), s.filter_performAll_sweep]
      exact ih orderly.tail unused.tail fun call hcall => (hnow.sweep hclock).later (hlater call hcall)
    | false =>
      obtain ⟨hanswer, htrails⟩ := hnow.perform s hsweep orderly.fits
        fun chance hchance => unused.names_chance hchance
      rw [List.filter_cons_of_pos (by simp [hsweep]), s.filter_performAll_client _ _ _ _ hsweep]
      simp only [Service.performAll]
      rw [hanswer]
      exact congrArg _ (ih orderly.tail (unused.after s orderly.fresh) fun call hcall =>
        htrails.later (hlater call hcall))

end Trails

/-- A store that keeps its entries is never seen to be swept. -/
theorem performAll (K : Shelving store empty identifier Admits ε) {s : Service}
    {calls : List (Instant × Operation)} (orderly : s.Orderly identifier Admits calls) :
    (s.performAll store calls empty).1.filter (fun o => !o.isSwept) =
      (s.performAll store (calls.filter fun call => !call.2.isSweep) empty).1 :=
  Trails.performAll (K := K) orderly (.nil calls) fun _ _ =>
    ⟨K.keeps_empty, [], K.keeps_empty, .refl _ []⟩

end Shelving

namespace Service

/-- Where a sweep does nothing, no client can tell that it took place. -/
theorem performAll_of_sweep_eq {σ : Type} (s : Service) {store : Store σ}
    (hsweep : ∀ now st, (store now .sweep st).2 = st) (calls : List (Instant × Operation)) (st : σ) :
    (s.performAll store calls st).1.filter (fun o => !o.isSwept) =
      (s.performAll store (calls.filter fun call => !call.2.isSweep) st).1 := by
  induction calls generalizing st with
  | nil => rfl
  | cons call rest ih =>
    obtain ⟨now, op⟩ := call
    cases hop : op.isSweep with
    | true =>
      obtain rfl := Operation.eq_deleteExpired hop
      rw [List.filter_cons_of_neg (by simp [hop]), s.filter_performAll_sweep, hsweep, ih]
    | false =>
      rw [List.filter_cons_of_pos (by simp [hop]), s.filter_performAll_client _ _ _ _ hop, ih]
      rfl

end Service

namespace Backend

/-- The expiries that a store can cope with. The table of texts takes years after 9999 for past
ones. -/
def Admits : Backend → Instant → Prop
  | textTable, t => t.year ≤ 9999
  | _, _ => True

instance (b : Backend) (t : Instant) : Decidable (b.Admits t) :=
  match b with
  | textTable => inferInstanceAs (Decidable (t.year ≤ 9999))
  | memory | keyValue | document => inferInstanceAs (Decidable True)

/-- Wherever a run is swept, the clients get the answers of the run without the sweeps. -/
theorem sweeps_unseen (b : Backend) (s : Service) (calls : List (Instant × Operation))
    (orderly : s.Orderly b.identifier b.Admits calls) :
    (s.performAll b.store calls b.empty).1.filter (fun o => !o.isSwept) =
      (s.performAll b.store (calls.filter fun call => !call.2.isSweep) b.empty).1 := by
  cases b with
  | memory => exact Memory.shelving.performAll orderly
  | textTable => exact TextTable.shelving.performAll orderly
  | keyValue => exact s.performAll_of_sweep_eq (fun _ _ => rfl) calls _
  | document => exact Document.shelving.performAll orderly

/-- A secret expires in a table of texts and is swept before it is asked for; another one, of the
default lifetime, outlives two sweeps. -/
theorem sweeps_unseen_between_readers :
    let s : Service := ⟨"service key", ⟨3600000000000⟩⟩
    let chance : Chance := ⟨Vector.replicate 12 0, 0⟩
    let chance' : Chance := ⟨Vector.replicate 12 1, 1⟩
    let calls : List (Instant × Operation) :=
      [(⟨10, 0⟩, .create chance { value := "attack at dawn", expiresAt := some ⟨99, 999999999⟩ }),
        (⟨10, 500⟩, .create chance' { value := "attack at noon", passphrase := some "x" }),
        (⟨101, 0⟩, .deleteExpired), (⟨101, 1⟩, .get chance.identifier none),
        (⟨102, 0⟩, .deleteExpired), (⟨102, 0⟩, .get chance'.identifier (some "x"))]
    (s.performAll textTable.store calls textTable.empty).1.filter (fun o => !o.isSwept) =
      (s.performAll textTable.store (calls.filter fun call => !call.2.isSweep) textTable.empty).1 := by
  intro s chance chance' calls
  have hfirst : s.accept { value := "attack at dawn", expiresAt := some ⟨99, 999999999⟩ } ⟨10, 0⟩ =
      .ok ⟨99, 999999999⟩ := by
    rw [Service.accept, Service.checkValue_eq_ok_iff.2 (by decide)]
    rfl
  have hsecond : s.accept { value := "attack at noon", passphrase := some "x" } ⟨10, 500⟩ =
      .ok ⟨3610, 500⟩ := by
    rw [Service.accept, Service.checkValue_eq_ok_iff.2 (by decide)]
    rfl
  refine sweeps_unseen textTable s calls ⟨by decide, by decide, ?_, ?_, by decide⟩
  · intro now c wanted t hcreate hexplicit
    simp only [calls, List.mem_cons, Prod.mk.injEq, Operation.create.injEq, List.not_mem_nil] at hcreate
    rcases hcreate with ⟨rfl, rfl, rfl⟩ | ⟨rfl, rfl, rfl⟩ | h
    · rw [← Option.some.inj hexplicit]
      decide
    · cases hexplicit
    · simp at h
  · intro now c wanted t hcreate haccept
    simp only [calls, List.mem_cons, Prod.mk.injEq, Operation.create.injEq, List.not_mem_nil] at hcreate
    rcases hcreate with ⟨rfl, rfl, rfl⟩ | ⟨rfl, rfl, rfl⟩ | h
    · rw [hfirst] at haccept
      rw [← Except.ok.inj haccept]
      decide
    · rw [hsecond] at haccept
      rw [← Except.ok.inj haccept]
      decide
    · simp at h

end Backend

end BurnAfterRead
