import BurnAfterRead.Secret.Basic
import BurnAfterRead.Settings.Shown

/-!
# What is shown of credentials

Diagnostics and the table of settings tell of a credential that it is set, and diagnostics also whether it
is empty, but nothing of its contents. So settings that differ only in the contents of their credentials
look the same. That is all that is hidden: settings that differ in which credentials are set, or empty, do
not look the same, since what stands for a credential can be told from whatever follows it.
-/

namespace BurnAfterRead

/-! ## Texts that end by themselves -/

/-- The texts of different values differ, also when more text follows them. -/
def PrefixFree {α : Type} (shown : α → String) : Prop :=
  ∀ {a b : α} {x y : String}, shown a ++ x = shown b ++ y → a = b ∧ x = y

theorem prefixFree_const (text : String) : PrefixFree fun _ : Unit => text :=
  fun h => ⟨rfl, (String.append_right_inj text).1 h⟩

/-- A value that may be missing ends by itself if the value does. -/
theorem PrefixFree.optional {α : Type} {shown : α → String} (h : PrefixFree shown) :
    PrefixFree fun a : Option α => Diagnostic.optional (a.map shown) := by
  intro a b x y hxy
  cases a with
  | none =>
    cases b with
    | none => exact ⟨rfl, (String.append_right_inj "None").1 hxy⟩
    | some b =>
      have hfirst := congrArg String.toList hxy
      simp [Diagnostic.optional] at hfirst
  | some a =>
    cases b with
    | none =>
      have hfirst := congrArg String.toList hxy
      simp [Diagnostic.optional] at hfirst
    | some b =>
      simp only [Option.map_some, Diagnostic.optional, String.append_assoc, String.append_right_inj] at hxy
      obtain ⟨rfl, hrest⟩ := h hxy
      exact ⟨rfl, (String.append_right_inj ")").1 hrest⟩

namespace Settings

/-! ## Credentials -/

/-- The settings with other credentials. -/
def withCredentials (s : Settings) (key : String) (uri password : Option String) : Settings :=
  { s with
    secrets := { s.secrets with encryptionKey := key }
    database := { s.database with uri := uri, password := password } }

/-- What credentials are without their contents: whether there is a key, and whether the address and the
password of the database are set, and if so, whether they are more than an empty text. -/
structure Outline where
  key : Bool
  uri : Option Bool
  password : Option Bool
  deriving DecidableEq, Repr

def outline (s : Settings) : Outline :=
  ⟨s.secrets.encryptionKey != "", s.database.uri.map (· != ""), s.database.password.map (· != "")⟩

/-- Which credentials are set. -/
def Outline.whichSet (o : Outline) : Bool × Bool × Bool := (o.key, o.uri.isSome, o.password.isSome)

/-- What diagnostics show of a credential that is empty or not. -/
def veil (isFilled : Bool) : String := Diagnostic.quoted (if isFilled then mask else "")

theorem quoted_redact (value : String) : Diagnostic.quoted (redact value) = veil (value != "") := by
  by_cases hempty : value = ""
  · rw [redact, if_pos hempty, hempty]
    rfl
  · rw [redact, if_neg hempty, bne_iff_ne.2 hempty]
    rfl

theorem shownCredential_eq (value : Option String) :
    shownCredential value = Diagnostic.optional ((value.map (· != "")).map veil) := by
  cases value with
  | none => rfl
  | some value => exact congrArg (fun shown => Diagnostic.optional (some shown)) (quoted_redact value)

theorem prefixFree_veil : PrefixFree veil := by
  have hempty : veil false = "\"\"" := rfl
  have hfilled : veil true = "\"********\"" := by decide
  intro a b x y hxy
  cases a <;> cases b
  · exact ⟨rfl, (String.append_right_inj _).1 hxy⟩
  · have hsecond := congrArg String.toList hxy
    simp [hempty, hfilled] at hsecond
  · have hsecond := congrArg String.toList hxy
    simp [hempty, hfilled] at hsecond
  · exact ⟨rfl, (String.append_right_inj _).1 hxy⟩

theorem masked_inj {a b : Bool} : masked a = masked b ↔ a = b := by
  revert a b
  decide

section Shown

variable (s : Settings) (key : String) (uri password : Option String)

theorem diagnostic_withCredentials_iff :
    s.diagnostic = (s.withCredentials key uri password).diagnostic ↔
      s.outline = (s.withCredentials key uri password).outline := by
  simp only [diagnostic, Diagnostic.record, Diagnostic.fields, withCredentials, outline, quoted_redact,
    shownCredential_eq, String.append_assoc, String.append_right_inj, Outline.mk.injEq]
  constructor
  · intro h
    obtain ⟨hkey, h⟩ := prefixFree_veil h
    simp only [String.append_right_inj] at h
    obtain ⟨huri, h⟩ := prefixFree_veil.optional h
    simp only [String.append_right_inj] at h
    exact ⟨hkey, huri, (prefixFree_veil.optional h).1⟩
  · rintro ⟨hkey, huri, hpassword⟩
    rw [hkey, huri, hpassword]

theorem rows_withCredentials_iff :
    s.rows = (s.withCredentials key uri password).rows ↔
      s.outline.whichSet = (s.withCredentials key uri password).outline.whichSet := by
  simp only [rows, withCredentials, outline, Outline.whichSet, List.cons.injEq, Prod.mk.injEq, true_and,
    and_true, masked_inj, Option.isSome_map]

end Shown

end Settings

namespace Secret

/-- The secret with another plaintext and passphrase. -/
def withContents (s : Secret) (value : String) (passphrase : Option String) : Secret :=
  { s with value := value, passphrase := passphrase }

theorem optional_redacted (passphrase : Option String) :
    Diagnostic.optional (passphrase.map fun _ => redacted) =
      Diagnostic.optional ((passphrase.map fun _ => ()).map fun _ => redacted) := by
  rw [Option.map_map]
  rfl

theorem map_unit_eq_iff {p q : Option String} :
    (p.map fun _ => ()) = (q.map fun _ => ()) ↔ p.isSome = q.isSome := by
  cases p <;> cases q <;> simp

theorem diagnostic_withContents_iff (s : Secret) (value : String) (passphrase : Option String) :
    s.diagnostic = (s.withContents value passphrase).diagnostic ↔
      s.passphrase.isSome = passphrase.isSome := by
  simp only [diagnostic, Diagnostic.record, Diagnostic.fields, withContents, optional_redacted,
    String.append_assoc, String.append_right_inj, ← map_unit_eq_iff]
  constructor
  · intro h
    exact (PrefixFree.optional (prefixFree_const redacted) h).1
  · intro h
    rw [h]

end Secret

/-- Settings that differ in nothing but their credentials have the same diagnostics exactly if the same
credentials are set, and empty, and the same table exactly if the same are set. Secrets that differ in
nothing but plaintext and passphrase have the same diagnostics exactly if both have a passphrase, or
neither. -/
theorem credentials_unseen :
    (∀ (s : Settings) (key : String) (uri password : Option String),
      let t := s.withCredentials key uri password
      (s.diagnostic = t.diagnostic ↔ s.outline = t.outline) ∧
      (s.rows = t.rows ↔ s.outline.whichSet = t.outline.whichSet)) ∧
    ∀ (a : Secret) (value : String) (passphrase : Option String),
      let b := a.withContents value passphrase
      (a.diagnostic = b.diagnostic ↔ a.passphrase.isSome = b.passphrase.isSome) :=
  ⟨fun s key uri password => ⟨s.diagnostic_withCredentials_iff key uri password,
      s.rows_withCredentials_iff key uri password⟩,
    fun a value passphrase => a.diagnostic_withContents_iff value passphrase⟩

end BurnAfterRead
