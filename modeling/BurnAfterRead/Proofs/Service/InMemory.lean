import BurnAfterRead.Proofs.Service.Sequential
import BurnAfterRead.Proofs.Store.Memory
import Mathlib.Data.List.Induction

/-!
# Operations on records in memory

What one operation does to the records, whatever it is answered: a creation adds the record of its
draft or is refused, a take erases its record or fails. So in every memory that operations lead to,
identifiers occur once, and every record was stored by a creation.
-/

namespace BurnAfterRead

namespace Memory

theorem nodup_insert {m : Memory} (nodup : (m.records.map (·.id)).Nodup) (r : Record) :
    ((m.insert r).records.map (·.id)).Nodup := by
  refine nodup_append (nodup_filter nodup _) fun x hx => ?_
  rw [beq_eq_false_iff_ne]
  exact bne_iff_ne.1 (List.mem_filter.1 hx).2

/-- Under an identifier that is not in use, a record is only added. -/
theorem records_insert_of_fresh {m : Memory} {r : Record} (h : m.find? r.id = none) :
    (m.insert r).records = m.records ++ [r] := by
  have herase : (m.erase r.id).records = m.records :=
    List.filter_eq_self.2 fun x hx => by simpa using List.find?_eq_none.1 h x hx
  unfold insert
  rw [herase]

/-- The erasure of a record that is there takes it away, and nothing else. -/
theorem records_erase_of_find? {m : Memory} (nodup : (m.records.map (·.id)).Nodup) {id : String}
    {r : Record} (h : m.find? id = some r) : (m.erase id).records = m.records.erase r := by
  obtain rfl := id_of_find? h
  have hmem := List.mem_of_find?_eq_some h
  rw [(List.Nodup.of_map _ nodup).erase_eq_filter]
  unfold erase
  refine List.filter_congr fun x hx => ?_
  rw [Bool.eq_iff_iff, bne_iff_ne, bne_iff_ne, not_iff_not]
  exact ⟨fun hid => List.inj_on_of_nodup_map nodup hx hmem hid, congrArg Record.id⟩

theorem find?_singleton (r : Record) : Memory.find? ⟨[r]⟩ r.id = some r :=
  List.find?_cons_of_pos (beq_self_eq_true r.id)

/-- What is found can be had. -/
theorem lends_of_find? {m : Memory} {id : String} {r : Record} (h : m.find? id = some r) (now : Instant) :
    store.Lends now m id r where
  found := store_find_of_some h now
  removed := by
    rw [answerFind_records]
    exact (store_remove m now id).trans (if_neg (by simp [h]))

theorem not_mem_erase (m : Memory) (r : Record) : r ∉ (m.erase r.id).records := by
  intro h
  exact absurd rfl (bne_iff_ne.1 (List.mem_filter.1 h).2)

/-- What an erasure takes away is what is found. -/
theorem eq_of_not_mem_erase {m : Memory} (nodup : (m.records.map (·.id)).Nodup) {id : String}
    {r x : Record} (h : m.find? id = some r) (hx : x ∈ m.records) (hgone : x ∉ (m.erase id).records) :
    x = r := by
  by_contra hne
  rw [records_erase_of_find? nodup h] at hgone
  exact hgone ((List.mem_erase_of_ne hne).2 hx)

/-- The erasure of a record that has expired is not seen among the live ones. -/
theorem live_erase_of_expired {m : Memory} (nodup : (m.records.map (·.id)).Nodup) {id : String}
    {r : Record} (h : m.find? id = some r) {now : Instant} (hexpired : r.isExpired now = true) :
    (m.erase id).live now = m.live now := by
  unfold live
  rw [records_erase_of_find? nodup h, (List.Nodup.of_map _ nodup).erase_eq_filter, List.filter_filter]
  refine congrArg Memory.mk (List.filter_congr fun x _ => ?_)
  by_cases hx : x = r
  · rw [hx, hexpired]
    rfl
  · rw [bne_iff_ne.2 hx, Bool.and_true]

end Memory

/-- A record opens under the key that its draft was sealed with. -/
theorem Service.Drafted.reveal {s : Service} {chance : Chance} {wanted : Secret} {d : Draft}
    (h : s.Drafted chance wanted d) {passphrase : Option String}
    (hkey : s.keyFor passphrase = s.keyFor wanted.passphrase) :
    ∃ secret, Repository.reveal d.record (s.keyFor passphrase) = .ok secret := by
  unfold Repository.reveal Draft.record
  rw [hkey, Crypto.decrypt_encrypt h.sealed]
  dsimp only
  rw [Crypto.utf8Text?_utf8]
  exact ⟨_, rfl⟩

/-- What a record gives out under a key is what the key makes of the token of its draft. -/
theorem Service.Drafted.opening_of_reveal {s : Service} {chance : Chance} {wanted secret : Secret}
    {d : Draft} (h : s.Drafted chance wanted d) {key : String}
    (hopen : Repository.reveal d.record key = .ok secret) :
    Crypto.opening chance.nonce (Crypto.utf8 wanted.value) (s.keyFor wanted.passphrase) key =
      .ok (Crypto.utf8 secret.value) := by
  have hopening : Crypto.opening chance.nonce (Crypto.utf8 wanted.value) (s.keyFor wanted.passphrase)
      key = Crypto.decrypt d.value key := by
    unfold Crypto.opening
    rw [h.sealed]
    rfl
  rw [hopening]
  unfold Repository.reveal Draft.record at hopen
  cases hdec : Crypto.decrypt d.value key with
  | error f => simp only [hdec] at hopen; exact absurd hopen (by simp)
  | ok bytes =>
    simp only [hdec] at hopen
    cases htext : Crypto.utf8Text? bytes with
    | none => simp only [htext] at hopen; exact absurd hopen (by simp)
    | some value =>
      simp only [htext] at hopen
      rw [← Except.ok.inj hopen, Crypto.utf8_of_utf8Text? htext]

/-- What an authentic token opens to is the plaintext that was sealed. -/
theorem Service.Drafted.value_of_reveal {s : Service} {chance : Chance} {wanted secret : Secret}
    {d : Draft} (h : s.Drafted chance wanted d) {key : String}
    (authentic : Crypto.Authentic chance.nonce (Crypto.utf8 wanted.value)
      (s.keyFor wanted.passphrase) key)
    (hopen : Repository.reveal d.record key = .ok secret) : secret.value = wanted.value := by
  have hdec := h.opening_of_reveal hopen
  unfold Crypto.opening at hdec
  rw [h.sealed] at hdec
  have htext := congrArg Crypto.utf8Text? (authentic d.value _ h.sealed hdec)
  rw [Crypto.utf8Text?_utf8, Crypto.utf8Text?_utf8] at htext
  exact Option.some.inj htext

/-- What a record opens to goes by its identifier. -/
theorem Repository.id_of_reveal {r : Record} {key : String} {secret : Secret}
    (h : Repository.reveal r key = .ok secret) : secret.id = r.id := by
  unfold Repository.reveal at h
  split at h
  · exact absurd h (by simp)
  · split at h
    · rw [← Except.ok.inj h]
    · exact absurd h (by simp)

namespace Service

variable (s : Service) (now : Instant) (m : Memory)

/-- A take from records in memory is judged by what a lookup finds. -/
theorem run_take_memory (id : String) (passphrase : Option String) {α : Type} (result : Secret → α) :
    (s.take id passphrase result).run (Memory.store.answer now) m =
      ((s.judge passphrase now (answerFind m.records id)).answer.map result,
        if (s.judge passphrase now (answerFind m.records id)).removes then m.erase id else m) := by
  refine s.run_take passphrase result (Memory.answerFind_records m now id) fun r hr => ?_
  refine (Memory.store_remove m now id).trans (if_neg fun hnone => ?_)
  unfold Memory.find? at hnone
  rw [answerFind, hnone] at hr
  cases hr

/-- What a take comes to: it fails and changes nothing, or meets a record that has expired, or opens a
live one. Whatever it meets, it erases. -/
theorem take_cases (id : String) (passphrase : Option String) {α : Type} (result : Secret → α) :
    (∃ f, (s.take id passphrase result).run (Memory.store.answer now) m = (.error f, m)) ∨
    (∃ r, m.find? id = some r ∧ r.isExpired now = true ∧
      (s.take id passphrase result).run (Memory.store.answer now) m =
        (.error .secretNotFound, m.erase id)) ∨
    (∃ r secret, m.find? id = some r ∧ r.isExpired now = false ∧
      Repository.reveal r (s.keyFor passphrase) = .ok secret ∧
      (s.take id passphrase result).run (Memory.store.answer now) m =
        (.ok (result secret), m.erase id)) := by
  rw [run_take_memory]
  unfold answerFind Memory.find?
  cases hfind : m.records.find? (·.id == id) with
  | none => exact Or.inl ⟨_, rfl⟩
  | some r =>
    dsimp only
    cases hexpired : r.isExpired now with
    | true =>
      rw [judge_of_expired s passphrase hexpired]
      exact Or.inr (Or.inl ⟨r, rfl, hexpired, rfl⟩)
    | false =>
      cases hopen : Repository.reveal r (s.keyFor passphrase) with
      | error f =>
        rw [judge_of_refused s passphrase hexpired hopen]
        exact Or.inl ⟨f, rfl⟩
      | ok secret =>
        rw [judge_of_opened s passphrase hexpired hopen]
        exact Or.inr (Or.inr ⟨r, secret, rfl, hexpired, hopen, rfl⟩)

variable {s now m} in
/-- A live record that a take took away was opened by it. -/
theorem opened_of_gone (nodup : (m.records.map (·.id)).Nodup) {r : Record} (hr : r ∈ m.records)
    (hlive : r.isExpired now = false) {id : String} {passphrase : Option String} {α : Type}
    {result : Secret → α}
    (hgone : r ∉ ((s.take id passphrase result).run (Memory.store.answer now) m).2.records) :
    r.id = id ∧ ∃ secret, Repository.reveal r (s.keyFor passphrase) = .ok secret ∧
      ((s.take id passphrase result).run (Memory.store.answer now) m).1 = .ok (result secret) := by
  rcases s.take_cases now m id passphrase result with ⟨f, h⟩ | ⟨x, hfind, hexpired, h⟩ |
    ⟨x, secret, hfind, -, hopen, h⟩ <;> rw [h] at hgone ⊢
  · exact absurd hr hgone
  · obtain rfl := Memory.eq_of_not_mem_erase nodup hfind hr hgone
    rw [hlive] at hexpired
    cases hexpired
  · obtain rfl := Memory.eq_of_not_mem_erase nodup hfind hr hgone
    exact ⟨Memory.id_of_find? hfind, secret, hopen, rfl⟩

/-- What a creation comes to: it is refused and changes nothing, or its draft is stored. -/
theorem create_cases (chance : Chance) (wanted : Secret) :
    (∃ f, (s.create chance wanted).run (Memory.store.answer now) m = (.error f, m)) ∨
    ∃ draft, Drafted s chance wanted draft ∧
      (s.create chance wanted).run (Memory.store.answer now) m =
        (.ok (shell draft.record), m.insert draft.record) := by
  rw [run_create_eq]
  cases hdraft : s.draft now chance wanted with
  | error f => exact Or.inl ⟨f, rfl⟩
  | ok draft => exact Or.inr ⟨draft, (draft_eq_ok hdraft).2, rfl⟩

variable {s now m} in
/-- A creation whose identifier is a new one takes nothing away. -/
theorem subset_create {chance : Chance} (fresh : m.find? chance.identifier = none) (wanted : Secret) :
    m.records ⊆ ((s.create chance wanted).run (Memory.store.answer now) m).2.records := by
  rcases s.create_cases now m chance wanted with ⟨f, h⟩ | ⟨draft, drafted, h⟩ <;> rw [h]
  · exact List.Subset.refl _
  · have hid : draft.record.id = chance.identifier := drafted.identifier_eq
    rw [← hid] at fresh
    rw [Memory.records_insert_of_fresh fresh]
    exact List.subset_append_left _ _

variable {s now m}

theorem nodup_perform (op : Operation) (nodup : (m.records.map (·.id)).Nodup) :
    ((s.perform Memory.store now op m).2.records.map (·.id)).Nodup := by
  have take : ∀ (id : String) (passphrase : Option String) {α : Type} (result : Secret → α),
      (((s.take id passphrase result).run (Memory.store.answer now) m).2.records.map (·.id)).Nodup := by
    intro id passphrase α result
    rcases s.take_cases now m id passphrase result with ⟨f, h⟩ | ⟨r, -, -, h⟩ | ⟨r, secret, -, -, -, h⟩ <;>
      rw [h]
    · exact nodup
    · exact Memory.nodup_filter nodup _
    · exact Memory.nodup_filter nodup _
  cases op with
  | create chance wanted =>
    rw [perform_create]
    rcases s.create_cases now m chance wanted with ⟨f, h⟩ | ⟨draft, -, h⟩ <;> rw [h]
    · exact nodup
    · exact Memory.nodup_insert nodup _
  | get id passphrase =>
    rw [perform_get]
    exact take id passphrase _
  | delete id passphrase =>
    rw [perform_delete]
    exact take id passphrase _
  | deleteExpired =>
    unfold perform
    simp only [Operation.call, Dialogue.run_andThen, Dialogue.run, run_deleteExpired]
    exact Memory.nodup_filter nodup _

/-- A record is there after an operation if it was there before, or if the operation created it. -/
theorem mem_perform {op : Operation} {r : Record}
    (h : r ∈ (s.perform Memory.store now op m).2.records) :
    r ∈ m.records ∨ ∃ chance wanted draft, op = .create chance wanted ∧
      Drafted s chance wanted draft ∧ r = draft.record := by
  have take : ∀ (id : String) (passphrase : Option String) {α : Type} (result : Secret → α),
      r ∈ ((s.take id passphrase result).run (Memory.store.answer now) m).2.records → r ∈ m.records := by
    intro id passphrase α result h
    rcases s.take_cases now m id passphrase result with ⟨f, h'⟩ | ⟨r, -, -, h'⟩ | ⟨r, secret, -, -, -, h'⟩ <;>
      rw [h'] at h
    · exact h
    · exact (List.mem_filter.1 h).1
    · exact (List.mem_filter.1 h).1
  cases op with
  | create chance wanted =>
    rw [perform_create] at h
    rcases s.create_cases now m chance wanted with ⟨f, h'⟩ | ⟨draft, drafted, h'⟩ <;> rw [h'] at h
    · exact Or.inl h
    · rcases List.mem_append.1 h with h | h
      · exact Or.inl (List.mem_filter.1 h).1
      · exact Or.inr ⟨chance, wanted, draft, rfl, drafted, List.mem_singleton.1 h⟩
  | get id passphrase =>
    rw [perform_get] at h
    exact Or.inl (take id passphrase _ h)
  | delete id passphrase =>
    rw [perform_delete] at h
    exact Or.inl (take id passphrase _ h)
  | deleteExpired =>
    unfold perform at h
    simp only [Operation.call, Dialogue.run_andThen, Dialogue.run, run_deleteExpired] at h
    exact Or.inl (List.mem_filter.1 h).1

variable (s) in
/-- The memory that some operations lead to, from an empty one on. -/
def memoryAfter (calls : List (Instant × Operation)) : Memory :=
  (s.performAll Memory.store calls .empty).2

theorem memoryAfter_concat (calls : List (Instant × Operation)) (now : Instant) (op : Operation) :
    s.memoryAfter (calls ++ [(now, op)]) = (s.perform Memory.store now op (s.memoryAfter calls)).2 := by
  unfold memoryAfter
  rw [performAll_append]
  rfl

/-- The memory after an accepted creation holds its record. -/
theorem memoryAfter_create {now t : Instant} {wanted : Secret} (chance : Chance)
    (haccept : s.accept wanted now = .ok t) :
    ∃ r, s.memoryAfter [(now, .create chance wanted)] = ⟨[r]⟩ ∧ r.id = chance.identifier ∧
      r.expiresAt = t ∧
      Crypto.encrypt chance.nonce (Crypto.utf8 wanted.value) (s.keyFor wanted.passphrase) =
        .ok r.value := by
  obtain ⟨-, token, htoken, hrun⟩ := run_create_of_accept Memory.store chance .empty haccept
  refine ⟨Draft.record ⟨token, t, chance.random⟩, ?_, rfl, rfl, htoken⟩
  unfold memoryAfter performAll
  rw [perform_create, hrun]
  rfl

theorem nodup_memoryAfter (calls : List (Instant × Operation)) :
    ((s.memoryAfter calls).records.map (·.id)).Nodup := by
  induction calls using List.reverseRecOn with
  | nil => exact List.nodup_nil
  | append_singleton calls call ih =>
    rw [memoryAfter_concat]
    exact nodup_perform call.2 ih

/-- Every record was stored by a creation. -/
theorem exists_creation {calls : List (Instant × Operation)} {r : Record}
    (h : r ∈ (s.memoryAfter calls).records) :
    ∃ now chance wanted draft, (now, .create chance wanted) ∈ calls ∧
      Drafted s chance wanted draft ∧ r = draft.record := by
  induction calls using List.reverseRecOn with
  | nil => cases h
  | append_singleton calls call ih =>
    rw [memoryAfter_concat] at h
    rcases mem_perform h with h | ⟨chance, wanted, draft, hop, drafted, hr⟩
    · obtain ⟨now, chance, wanted, draft, hcall, hrest⟩ := ih h
      exact ⟨now, chance, wanted, draft, List.mem_append_left _ hcall, hrest⟩
    · refine ⟨call.1, chance, wanted, draft, ?_, drafted, hr⟩
      rw [← hop]
      exact List.mem_append_right _ List.mem_cons_self

end Service

end BurnAfterRead
