import BurnAfterRead.Proofs.Time.Timestamp
import BurnAfterRead.Store.Command

/-!
# Stores make nothing up

A store may lose what it was given at any time, but what a lookup finds is the record of a draft that the
store was asked to keep, and what a lookup misses or a removal was asked for is gone. `Custody` is what
stores have in common in this respect. It speaks of the drafts whose records may be there, so it needs
no account of times: what has lapsed or was swept need not be there.
-/

namespace BurnAfterRead

/-- How the states of a store hold the records of drafts. Records go by identifiers, of which some
texts may denote the same. A draft that is stored draws an identifier that is not in use. -/
structure Custody {σ : Type} (store : Store σ) (empty : σ) (identifier : BitVec 128 → String)
    (Denotes : String → BitVec 128 → Prop) where
  /-- All records that a state holds are those of drafts with a property. -/
  Holds : σ → (Draft → Prop) → Prop
  /-- What a lookup makes of what is held for a draft. -/
  read : Draft → Except Failure Record
  denotes_iff : ∀ {id a}, Denotes id a → ∀ b, Denotes id b ↔ identifier b = identifier a
  holds_empty : ∀ P, Holds empty P
  mono : ∀ {st P Q}, Holds st P → (∀ d, P d → Q d) → Holds st Q
  find : ∀ {st P}, Holds st P → ∀ now id, Holds (store now (.find id) st).2 P ∧
    (((store now (.find id) st).1 = .error .secretNotFound ∧
        Holds (store now (.find id) st).2 fun d => P d ∧ ¬Denotes id d.random) ∨
      ∃ d, P d ∧ Denotes id d.random ∧ (store now (.find id) st).1 = read d)
  insert : ∀ {st P}, Holds st P → ∀ now (draft : Draft),
    (∀ d, P d → identifier d.random ≠ identifier draft.random) →
    Holds (store now (.insert draft) st).2 (fun d => P d ∨ d = draft) ∧
      ∀ r, (store now (.insert draft) st).1 = .ok r → Denotes r.id draft.random ∧
        (r.expiresAt.WellFormed → read draft = .ok r)
  remove : ∀ {st P}, Holds st P → ∀ now id,
    Holds (store now (.remove id) st).2 fun d => P d ∧ ¬Denotes id d.random
  sweep : ∀ {st P}, Holds st P → ∀ now, Holds (store now .sweep st).2 P
  read_error : ∀ {d f}, read d = .error f → f ≠ .secretNotFound ∧ f ≠ .decryptionFailed

/-- All entries of a list are kept for drafts with a property. -/
def KeptFor {ε : Type} (isFor : ε → Draft → Prop) (es : List ε) (P : Draft → Prop) : Prop :=
  ∀ e ∈ es, ∃ d, P d ∧ isFor e d

namespace KeptFor

variable {ε : Type} {isFor : ε → Draft → Prop} {es es' : List ε} {P Q : Draft → Prop}

theorem nil (P : Draft → Prop) : KeptFor isFor [] P := fun _ he => nomatch he

theorem mono (h : KeptFor isFor es P) (hPQ : ∀ d, P d → Q d) : KeptFor isFor es Q := by
  intro e he
  obtain ⟨d, hd, hfor⟩ := h e he
  exact ⟨d, hPQ d hd, hfor⟩

theorem subset (h : KeptFor isFor es P) (hsub : es' ⊆ es) : KeptFor isFor es' P :=
  fun e he => h e (hsub he)

theorem concat (h : KeptFor isFor es P) {e : ε} {draft : Draft} (hfor : isFor e draft) :
    KeptFor isFor (es ++ [e]) fun d => P d ∨ d = draft := by
  intro x hx
  rcases List.mem_append.1 hx with hx | hx
  · exact h.mono (fun _ => Or.inl) x hx
  · rw [List.mem_singleton.1 hx]
    exact ⟨draft, Or.inr rfl, hfor⟩

section Names

variable {names : ε → Bool} {R : Draft → Prop} (hnames : ∀ e d, isFor e d → (names e = true ↔ R d))
include hnames

/-- Of entries that do not go by a name, none is kept for a draft that does. -/
theorem of_unnamed (h : KeptFor isFor es P) (hleft : ∀ e ∈ es, names e = false) :
    KeptFor isFor es fun d => P d ∧ ¬R d := by
  intro e he
  obtain ⟨d, hd, hfor⟩ := h e he
  refine ⟨d, ⟨hd, fun hR => ?_⟩, hfor⟩
  cases (hleft e he).symm.trans ((hnames e d hfor).2 hR)

theorem filter_not (h : KeptFor isFor es P) :
    KeptFor isFor (es.filter fun e => !names e) fun d => P d ∧ ¬R d := by
  refine (h.subset fun _ hx => (List.mem_filter.1 hx).1).of_unnamed hnames fun e he => ?_
  simpa using (List.mem_filter.1 he).2

/-- A lookup finds nothing and leaves nothing to be found, or it finds an entry of a draft. -/
theorem find? (h : KeptFor isFor es P) :
    (es.find? names = none ∧ KeptFor isFor es fun d => P d ∧ ¬R d) ∨
      ∃ e d, es.find? names = some e ∧ isFor e d ∧ P d ∧ R d := by
  cases hfind : es.find? names with
  | none =>
    refine Or.inl ⟨rfl, h.of_unnamed hnames fun e he => ?_⟩
    simpa using List.find?_eq_none.1 hfind e he
  | some e =>
    obtain ⟨d, hd, hfor⟩ := h e (List.mem_of_find?_eq_some hfind)
    exact Or.inr ⟨e, d, rfl, hfor, hd, (hnames e d hfor).1 (List.find?_some hfind)⟩

theorem find?_eq_none (h : KeptFor isFor es P) (hR : ∀ d, P d → ¬R d) : es.find? names = none := by
  rcases h.find? hnames with ⟨hnone, -⟩ | ⟨e, d, -, -, hd, hRd⟩
  · exact hnone
  · exact absurd hRd (hR d hd)

end Names

end KeptFor

/-- The draft that a command asks to be kept. -/
def Command.draft? : Command → Option Draft
  | insert draft => some draft
  | _ => none

namespace Custody

variable {σ : Type} {store : Store σ} {empty st : σ} {identifier : BitVec 128 → String}
  {Denotes : String → BitVec 128 → Prop} {P : Draft → Prop}

/-- Whatever a store is asked, short of closing it, all that it holds afterwards was there before or
is the draft that it was asked to keep. -/
theorem holds_store (K : Custody store empty identifier Denotes) (h : K.Holds st P) (now : Instant)
    {c : Command} (hopen : c ≠ .close)
    (hfresh : ∀ draft, c.draft? = some draft → ∀ d, P d → identifier d.random ≠ identifier draft.random) :
    K.Holds (store now c st).2 fun d => P d ∨ c.draft? = some d := by
  cases c with
  | find id => exact K.mono (K.find h now id).1 fun d hd => Or.inl hd
  | insert draft =>
    refine K.mono (K.insert h now draft (hfresh draft rfl)).1 fun d hd => hd.imp_right ?_
    rintro rfl
    rfl
  | remove id => exact K.mono (K.remove h now id) fun d hd => Or.inl hd.1
  | sweep => exact K.mono (K.sweep h now) fun d hd => Or.inl hd
  | close => exact absurd rfl hopen

end Custody

end BurnAfterRead
