import WriteBehind.Proofs.Except
import WriteBehind.Storage.Opening

namespace WriteBehind.Storage.Disk

variable {d d' d'' : Disk} {p q : Path} {n : Node} {s path : List Char} {a : Address}
variable {file : Option Path} {j : Journal} {schema : Schema} {c : Connection} {isLocked : Bool}

def KeepsTables (d d' : Disk) : Prop :=
  ∀ p j t, d.get? p = some (.database j (.records t)) →
    ∃ j', d'.get? p = some (.database j' (.records t))

theorem KeepsTables.refl : d.KeepsTables d := fun _ j _ h => ⟨j, h⟩

theorem KeepsTables.trans (k : d.KeepsTables d') (k' : d'.KeepsTables d'') : d.KeepsTables d'' := by
  intro p j t h
  have ⟨j', h'⟩ := k p j t h
  exact k' p j' t h'

theorem get?_put_self (hp : ¬p.all (· = parent) = true) : (d.put p n).get? p = some n := by
  rw [get?, if_neg hp]
  simp [put]

theorem get?_put_of_ne (hq : q ≠ p) : (d.put p n).get? q = d.get? q := by
  rw [get?, get?]
  split
  case isTrue  => rfl
  case isFalse =>
    simp only [put, List.find?_cons, Ne.symm hq, decide_false, List.find?_filter]
    congr 2
    funext x
    by_cases hx : x.1 = q <;> simp_all

theorem get?_of_parent (hp : p.all (· = parent) = true) : d.get? p = some .folder := if_pos hp

theorem not_parent (hn : d.get? p ≠ some .folder) : ¬p.all (· = parent) = true :=
  fun hp => hn (get?_of_parent hp)

theorem keepsTables_put (h : ∀ j t, d.get? p = some (.database j (.records t)) →
    ∃ j', n = .database j' (.records t)) : d.KeepsTables (d.put p n) := by
  intro q j t hq
  by_cases he : q = p
  case neg => exact ⟨j, (get?_put_of_ne he).trans hq⟩
  case pos =>
    subst he
    obtain ⟨j', rfl⟩ := h j t hq
    exact ⟨j', get?_put_self (not_parent (d := d) (by simp [hq]))⟩

theorem place_eq_ok (h : d.place p s = .ok d') :
    d.get? (p ++ [ownName s]) = none ∧ d' = d.put (p ++ [ownName s]) (.file []) := by
  rw [place] at h
  split at h
  case isTrue => cases h
  split at h
  case isTrue => cases h
  split at h
  case isTrue => cases h
  split at h
  case isTrue => cases h
  case isFalse hn =>
    cases h
    exact ⟨by simpa using hn, rfl⟩

theorem create_eq_ok (h : d.create s = .ok d') : ∃ p, d.get? p = none ∧ d' = d.put p (.file []) := by
  obtain ⟨_, _, h⟩ := bind_eq_ok h
  obtain ⟨q, _, h⟩ := bind_eq_ok h
  split at h
  case h_1 => cases h
  case h_2 => exact ⟨_, place_eq_ok h⟩
  case h_3 => cases h

theorem keepsTables_create (h : d.create s = .ok d') : d.KeepsTables d' := by
  obtain ⟨p, hp, rfl⟩ := create_eq_ok h
  exact keepsTables_put fun j t ht => by simp [hp] at ht

theorem keepsTables_ensure : d.KeepsTables (d.ensure s).2.1 := by
  rw [ensure]
  split
  case h_1 h => exact keepsTables_create h
  case h_2   => exact .refl
  case h_3   => exact .refl

theorem keepsTables_connect (h : d.connect a = .ok (d', file)) : d.KeepsTables d' := by
  rw [connect] at h
  split at h
  case isTrue => cases h
  case isFalse =>
    split at h
    case isTrue => cases h; exact .refl
    case isFalse =>
      split at h
      case h_1 => cases h
      case h_2 => cases h; exact .refl
      case h_3 =>
        split at h
        case h_2 => cases h
        case h_1 hc =>
          split at h
          case h_2 => cases h
          case h_1 => cases h; exact keepsTables_create hc

def Holds (d : Disk) (p : Path) (j : Journal) (schema : Schema) : Prop :=
  d.get? p = some (.file []) ∧ schema = .empty ∨ d.get? p = some (.database j schema)

-- A file keeps what it holds, with its journal beside it from then on unless it must not change.
inductive Journaled (d : Disk) (a : Address) (p : Path) : Disk → Journal → Schema → Prop
  | still {k : Journal} {sc : Schema} : a.isImmutable = true → d.Holds p k sc → Journaled d a p d k sc
  | moved {k : Journal} {sc : Schema} : d.Holds p k sc →
      Journaled d a p (d.put p (.database .wal sc)) .wal sc

theorem journaled_eq_ok (h : d.journaled a (some p) = .ok (d', j, schema)) :
    d.Journaled a p d' j schema := by
  rw [journaled] at h
  split at h
  case h_1 => cases h
  case h_2 j' schema' hs =>
    have hp : d.Holds p j' schema' := by
      split at hs
      case h_1 hf => cases hs; exact .inl ⟨hf, rfl⟩
      case h_2 hf => cases hs; exact .inr hf
      case h_3    => cases hs
    split at h
    case isTrue hi => cases h; exact .still hi hp
    case isFalse   =>
      split at h
      case isTrue  => cases h
      case isFalse => cases h; exact .moved hp

theorem Holds.not_folder (h : d.Holds p j schema) : d.get? p ≠ some .folder := by
  rcases h with ⟨hf, _⟩ | hf <;> simp [hf]

theorem keepsTables_journaled (h : d.journaled a file = .ok (d', j, schema)) : d.KeepsTables d' := by
  cases file with
  | none   => cases h; exact .refl
  | some p =>
    cases journaled_eq_ok h with
    | still  => exact .refl
    | moved hp =>
      refine keepsTables_put fun j t ht => ?_
      rcases hp with ⟨hf, _⟩ | hf
      case inl => simp [hf] at ht
      case inr =>
        rw [hf] at ht
        cases ht
        exact ⟨_, rfl⟩

theorem table_of_migrated {db : Database} (h : migrated isLocked j schema = .ok db) :
    ∃ t, db.table = some t ∧ (schema = .records t ∨ schema = .empty ∧ t = ∅) := by
  cases schema with
  | records t => cases h; exact ⟨t, rfl, .inl rfl⟩
  | foreign   =>
    rw [migrated] at h
    split at h <;> cases h
  | empty     =>
    rw [migrated] at h
    split at h
    case isTrue  => cases h
    case isFalse => cases h; exact ⟨∅, rfl, .inr ⟨rfl, rfl⟩⟩

theorem Journaled.get?_of_migrated {db : Database} (h : d.Journaled a p d' j schema)
    (hm : migrated (locked a (some p)) j schema = .ok db) : d'.get? p = some (.database j schema) := by
  cases h with
  | moved h    => exact get?_put_self (not_parent h.not_folder)
  | still hi h =>
    rcases h with ⟨_, rfl⟩ | h
    case inr => exact h
    case inl =>
      have hl : locked a (some p) = true := by simp [locked, hi]
      rw [hl] at hm
      cases hm

inductive Opened (d : Disk) (path : List Char) (d' : Disk) (c : Connection) : Prop
  | mk {ns a d₀ d₁ d₂ j schema} :
    d.ensure path = (ns, d₀, .ok ()) →
    Address.ofFile path = .ok a →
    d₀.connect a = .ok (d₁, c.file) →
    d₁.journaled a c.file = .ok (d₂, j, schema) →
    migrated (locked a c.file) j schema = .ok c.database →
    d' = d₂.save c →
    Opened d path d' c

theorem opened_of_openDatabase {ns : List Log.Notice} (h : d.openDatabase path = (ns, d', .ok c)) :
    Opened d path d' c := by
  rcases he : d.ensure path with ⟨ns₀, d₀, e | _⟩
  case error =>
    rw [openDatabase, he] at h
    cases h
  case ok =>
    simp only [openDatabase, he] at h
    split at h
    case h_1 => cases h
    case h_2 hc =>
      obtain ⟨a, ha, hc⟩ := bind_eq_ok hc
      obtain ⟨⟨d₁, file⟩, hf, hc⟩ := bind_eq_ok hc
      cases hc
      split at h
      case h_1 => cases h
      case h_2 hj =>
        split at h
        case h_1    => cases h
        case h_2 hm => cases h; exact .mk he ha hf hj hm rfl

theorem journal?_of_get? (h : d.get? p = some (.database j schema)) : d.journal? p = some j := by
  rw [journal?, h]

theorem get?_save {t : Table} (hp : c.file = some p) (ht : c.database.table = some t)
    (h : d.get? p = some (.database j schema)) :
    d.save c = d.put p (.database j (.records t)) ∧
      (d.save c).get? p = some (.database j (.records t)) := by
  have hs : d.save c = d.put p (.database j (.records t)) := by
    simp only [save, hp, ht, journal?_of_get? h, Option.getD_some]
  exact ⟨hs, hs ▸ get?_put_self (not_parent (d := d) (by simp [h]))⟩

theorem Opened.get?_file (o : Opened d path d' c) (hp : c.file = some p) :
    ∃ t j, c.database.table = some t ∧ d'.get? p = some (.database j (.records t)) := by
  obtain @⟨_, _, _, _, _, j, _, _, _, _, hj, hm, rfl⟩ := o
  have ⟨t, ht, _⟩ := table_of_migrated hm
  rw [hp] at hj hm
  exact ⟨t, j, ht, (get?_save hp ht ((journaled_eq_ok hj).get?_of_migrated hm)).right⟩

theorem keepsTables_save (hj : d.journaled a c.file = .ok (d', j, schema))
    (hm : migrated (locked a c.file) j schema = .ok c.database) : d.KeepsTables (d'.save c) := by
  have k := keepsTables_journaled hj
  have ⟨t, ht, hs⟩ := table_of_migrated hm
  cases hp : c.file with
  | none   => simpa only [save, hp] using k
  | some p =>
    rw [hp] at hj hm
    have hf := (journaled_eq_ok hj).get?_of_migrated hm
    rw [(get?_save hp ht hf).left]
    refine k.trans (keepsTables_put fun j t' ht' => ?_)
    rw [hf] at ht'
    cases ht'
    rcases hs with hs | ⟨hs, _⟩
    case inl => cases hs; exact ⟨_, rfl⟩
    case inr => cases hs

-- Whether it succeeds or not, opening a database keeps all tables.
theorem keepsTables_openDatabase (d : Disk) (path : List Char) :
    d.KeepsTables (d.openDatabase path).2.1 := by
  have ke : d.KeepsTables (d.ensure path).2.1 := keepsTables_ensure
  simp only [openDatabase]
  split
  case h_1 => exact ke
  case h_2 =>
    split
    case h_1 => exact ke
    case h_2 a d₁ file hc =>
      obtain ⟨_, _, hc⟩ := bind_eq_ok hc
      obtain ⟨⟨_, _⟩, hf, hc⟩ := bind_eq_ok hc
      cases hc
      have kc := ke.trans (keepsTables_connect hf)
      split
      case h_1 => exact kc
      case h_2 hj =>
        split
        case h_1    => exact kc.trans (keepsTables_journaled hj)
        case h_2 hm => exact kc.trans (keepsTables_save (c := ⟨_, file⟩) hj hm)

theorem Opened.keepsTables (o : Opened d path d' c) : d'.KeepsTables (d'.save c) := by
  cases hp : c.file with
  | none   => simp only [save, hp]; exact .refl
  | some p =>
    obtain ⟨t, j, ht, hf⟩ := o.get?_file hp
    rw [(get?_save hp ht hf).left]
    refine keepsTables_put fun j t' ht' => ?_
    rw [hf] at ht'
    cases ht'
    exact ⟨_, rfl⟩

end WriteBehind.Storage.Disk
