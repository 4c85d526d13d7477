import WriteBehind.Proofs.Storage.Address
import WriteBehind.Proofs.Storage.Disk

namespace WriteBehind.Storage

def Address.InFile (a : Address) : Prop := ¬(a.inMemory = true ∨ a.path = [])

namespace Disk

variable {d d' d'' : Disk} {p q o : Path} {n m : Node} {s path : List Char} {ns : List (List Char)}
variable {a : Address} {c : Connection} {t : Table} {j : Journal} {schema : Schema} {os : List Log.Notice}

structure Site (d : Disk) (s : List Char) (q : Path) : Prop where
  checked : checked s = .ok ()
  walk    : d.walk (origin s) (inside s).dropLast = .ok q
  folder  : d.get? q = some .folder

theorem Site.create_eq (si : d.Site s q) : d.create s = d.place q s := by
  rw [create, si.checked, si.walk]
  dsimp only [bind, Except.bind]
  rw [si.folder]

theorem walk_ne_taken : d.walk o ns ≠ .error .taken := by
  induction ns generalizing o with
  | nil => nofun
  | cons n ns ih =>
    rw [walk]
    repeat' split
    all_goals first | exact ih | nofun

theorem checked_ne_taken : checked s ≠ .error .taken := by
  rw [checked]
  repeat' split
  all_goals nofun

theorem exists_site (h : d.create s = .ok d' ∨ d.create s = .error .taken) : ∃ q, d.Site s q := by
  rw [create] at h
  rcases hs : checked s with e | _
  case error =>
    rw [hs] at h
    rcases h with h | h <;> cases h
    exact absurd hs checked_ne_taken
  rcases hw : d.walk (origin s) (inside s).dropLast with e | q
  case error =>
    rw [hs, hw] at h
    rcases h with h | h <;> cases h
    exact absurd hw walk_ne_taken
  case ok =>
    rw [hs, hw] at h
    dsimp only [bind, Except.bind] at h
    split at h
    case h_1    => rcases h with h | h <;> cases h
    case h_2 hf => exact ⟨q, hs, hw, hf⟩
    case h_3    => rcases h with h | h <;> cases h

structure Keeps (d d' : Disk) : Prop where
  folder : ∀ p, d.get? p = some .folder → d'.get? p = some .folder
  node   : ∀ p, (d.get? p).isSome → (d'.get? p).isSome

namespace Keeps

theorem refl : d.Keeps d := ⟨fun _ h => h, fun _ h => h⟩

theorem trans (k : d.Keeps d') (k' : d'.Keeps d'') : d.Keeps d'' :=
  ⟨fun p h => k'.folder p (k.folder p h), fun p h => k'.node p (k.node p h)⟩

theorem put (hp : d.get? p ≠ some .folder) : d.Keeps (d.put p n) where
  folder q hq := by
    have hn : q ≠ p := fun he => hp (he ▸ hq)
    rwa [get?_put_of_ne hn]
  node q hq := by
    by_cases hn : q = p
    case pos => rw [hn, get?_put_self (not_parent hp)]; rfl
    case neg => rwa [get?_put_of_ne hn]

theorem walk (k : d.Keeps d') (hw : d.walk o ns = .ok q) : d'.walk o ns = .ok q := by
  induction ns generalizing o with
  | nil => exact hw
  | cons n ns ih =>
    rw [Disk.walk] at hw ⊢
    split at hw
    case h_1 => cases hw
    case h_3 => cases hw
    case h_2 hf =>
      rw [k.folder o hf]
      dsimp only
      split at hw
      case isTrue h  => rw [if_pos h]; exact ih hw
      case isFalse h =>
        rw [if_neg h]
        split at hw
        case isTrue h  => rw [if_pos h]; exact ih hw
        case isFalse h =>
          rw [if_neg h]
          split at hw
          case isTrue    => cases hw
          case isFalse h => rw [if_neg h]; exact ih hw

theorem site (k : d.Keeps d') (si : d.Site s q) : d'.Site s q :=
  ⟨si.checked, k.walk si.walk, k.folder q si.folder⟩

theorem lookup (k : d.Keeps d') (hl : d.lookup s = .ok (q, m)) (hq : d'.get? q = some n) :
    d'.lookup s = .ok (q, n) := by
  obtain ⟨_, hs, hl⟩ := bind_eq_ok hl
  obtain ⟨o, hw, hl⟩ := bind_eq_ok hl
  split at hl
  case h_2 => cases hl
  case h_1 =>
    cases hl
    rw [Disk.lookup, hs, k.walk hw]
    dsimp only [bind, Except.bind]
    rw [hq]
    rfl

end Keeps

theorem get?_of_lookup (h : d.lookup s = .ok (q, m)) : d.get? q = some m := by
  obtain ⟨_, _, h⟩ := bind_eq_ok h
  obtain ⟨o, _, h⟩ := bind_eq_ok h
  split at h
  case h_1 ho => cases h; exact ho
  case h_2    => cases h

theorem create_of_ensure (h : d.ensure s = (os, d', .ok ())) :
    d.create s = .ok d' ∨ d.create s = .error .taken ∧ d' = d := by
  rw [ensure] at h
  split at h
  case h_1 hc => cases h; exact .inl hc
  case h_2 hc => cases h; exact .inr ⟨hc, rfl⟩
  case h_3    => cases h

theorem ensure_again (h : d.ensure s = (os, d', .ok ())) (k : d'.Keeps d'') :
    d''.ensure s = ([.fileExists], d'', .ok ()) := by
  suffices ht : d''.create s = .error .taken by rw [ensure, ht]
  have hc := create_of_ensure h
  obtain ⟨q, si⟩ := exists_site (hc.imp_right (·.left))
  have kd : d.Keeps d' := by
    rcases hc with hc | ⟨_, rfl⟩
    case inl =>
      obtain ⟨p, hp, rfl⟩ := create_eq_ok hc
      exact .put (by simp [hp])
    case inr => exact .refl
  rw [((kd.trans k).site si).create_eq]
  rw [si.create_eq] at hc
  rw [place] at hc ⊢
  split at hc
  case isTrue hd  => rw [if_pos hd]
  case isFalse hd =>
    rw [if_neg hd]
    split at hc
    case isTrue     => rcases hc with hc | ⟨hc, _⟩ <;> cases hc
    case isFalse hs =>
      rw [if_neg hs]
      split at hc
      case isTrue     => rcases hc with hc | ⟨hc, _⟩ <;> cases hc
      case isFalse hl =>
        rw [if_neg hl, if_pos]
        split at hc
        case isTrue hn  => exact (kd.trans k).node _ hn
        case isFalse hn =>
          rcases hc with hc | ⟨hc, _⟩ <;> cases hc
          refine k.node _ ?_
          rw [get?_put_self (not_parent (d := d) (by simp_all))]
          rfl

theorem connect_eq_ok {file : Option Path} (h : d.connect a = .ok (d', file)) :
    d.Keeps d' ∧ ((¬a.InFile ∧ file = none) ∨
      a.InFile ∧ ∃ q m, file = some q ∧ d'.lookup a.path = .ok (q, m)) := by
  rw [connect] at h
  split at h
  case isTrue => cases h
  split at h
  case isTrue hi => cases h; exact ⟨.refl, .inl ⟨fun hn => hn hi, rfl⟩⟩
  case isFalse hi =>
    split at h
    case h_1    => cases h
    case h_2 hl => cases h; exact ⟨.refl, .inr ⟨hi, _, _, rfl, hl⟩⟩
    case h_3 =>
      split at h
      case h_2 => cases h
      case h_1 hc =>
        split at h
        case h_2 => cases h
        case h_1 hl =>
          cases h
          obtain ⟨p, hp, rfl⟩ := create_eq_ok hc
          exact ⟨.put (by simp [hp]), .inr ⟨hi, _, _, rfl, hl⟩⟩

theorem connect_of_memory {x : Disk × Option Path} (h : d.connect a = .ok x) (hi : ¬a.InFile) :
    d'.connect a = .ok (d', none) := by
  rw [connect] at h ⊢
  split at h
  case isTrue     => cases h
  case isFalse hs => rw [if_neg hs, if_pos (not_not.mp hi)]

theorem connect_of_lookup {x : Disk × Option Path} (h : d.connect a = .ok x) (hi : a.InFile)
    (hl : d'.lookup a.path = .ok (q, m)) (hm : m ≠ .folder) : d'.connect a = .ok (d', some q) := by
  rw [connect] at h ⊢
  split at h
  case isTrue     => cases h
  case isFalse hs =>
    rw [if_neg hs, if_neg hi, hl]
    cases m with
    | folder          => exact absurd rfl hm
    | file | database => rfl

-- A file whose journal was moved once, or must not be, is opened again.
theorem Journaled.again {schema' : Schema} (h : d.Journaled a q d' j schema)
    (hq : d''.get? q = some (.database j schema')) :
    ∃ d₃, d''.journaled a (some q) = .ok (d₃, j, schema') := by
  rw [journaled, hq]
  cases h with
  | still hi => exact ⟨_, if_pos hi⟩
  | moved    =>
    dsimp only
    split
    case isTrue  => exact ⟨_, rfl⟩
    case isFalse => exact ⟨_, if_neg fun hn => hn.right rfl⟩

theorem openDatabase_eq {d₀ d₁ d₂ : Disk} {file : Option Path} {db : Database}
    (he : d.ensure path = (os, d₀, .ok ())) (ha : Address.ofFile path = .ok a)
    (hc : d₀.connect a = .ok (d₁, file)) (hj : d₁.journaled a file = .ok (d₂, j, schema))
    (hm : migrated (locked a file) j schema = .ok db) :
    d.openDatabase path = (os, d₂.save ⟨db, file⟩, .ok ⟨db, file⟩) := by
  simp only [openDatabase, he, ha, bind, Except.bind, hc, pure, Except.pure, hj, hm]

def rowsAt? (d : Disk) (s : List Char) : Option Table :=
  match d.lookup s with
  | .ok (_, .database _ (.records t)) => some t
  | _                                 => none

theorem rowsAt?_of_lookup {j : Journal} (h : d.lookup s = .ok (q, .database j (.records t))) :
    d.rowsAt? s = some t := by
  rw [rowsAt?, h]

theorem saved {db : Database} (hq : d.get? q = some (.database j schema)) (ht : db.table = some t) :
    d.Keeps (d.save ⟨db, some q⟩) ∧
      (d.save ⟨db, some q⟩).get? q = some (.database j (.records t)) := by
  have ⟨hs, hg⟩ := get?_save (c := ⟨db, some q⟩) rfl ht hq
  exact ⟨hs ▸ .put (by simp [hq]), hg⟩

theorem lookup_save {db : Database} {r : Path} (hl : d.lookup s = .ok (r, n)) (hr : q ≠ r)
    (hq : d.get? q = some (.database j schema)) : (d.save ⟨db, some q⟩).lookup s = .ok (r, n) := by
  cases ht : db.table with
  | none   => simpa only [save, ht] using hl
  | some t =>
    refine (saved hq ht).left.lookup hl ?_
    rw [(get?_save (c := ⟨db, some q⟩) rfl ht hq).left, get?_put_of_ne hr.symm]
    exact get?_of_lookup hl

structure Serves (d : Disk) (path : List Char) (d' : Disk) (c : Connection) (a : Address) : Prop where
  address : Address.ofFile path = .ok a
  plain   : IsPlain path → a = { path } ∧ a.InFile
  kept    : d.KeepsTables d'
  -- What it holds now, and what it comes to hold, is in the file at its address.
  file    : a.InFile → c.database.table.isSome ∧ d'.rowsAt? a.path = c.database.table ∧
    ∀ db, db.table.isSome → (d'.save ⟨db, c.file⟩).rowsAt? a.path = db.table
  -- It is empty, and what it comes to hold is in no file.
  memory  : ¬a.InFile → c.database.table = some ∅ ∧ ∀ db, d'.save ⟨db, c.file⟩ = d'
  -- No other file gets what is written.
  others  : ∀ db s q n, d'.lookup s = .ok (q, n) → c.file ≠ some q →
    (d'.save ⟨db, c.file⟩).lookup s = .ok (q, n)
  -- What is found when it is opened again.
  again   : ∀ db, db.table.isSome → ∃ ns d'' c',
    (d'.save ⟨db, c.file⟩).openDatabase path = (ns, d'', .ok c') ∧
      (a.InFile → c'.database.table = db.table) ∧ (¬a.InFile → c'.database.table = some ∅)

theorem ne_nil_of_ensure (h : d.ensure path = (os, d', .ok ())) : path ≠ [] := by
  rintro rfl
  obtain ⟨q, si⟩ := exists_site ((create_of_ensure h).imp_right (·.left))
  cases si.checked

theorem Journaled.keeps (h : d.Journaled a q d' j schema) : d.Keeps d' := by
  cases h with
  | still   => exact .refl
  | moved h => exact .put h.not_folder

theorem serves_of_file {d₀ d₁ d₂ : Disk} (he : d.ensure path = (os, d₀, .ok ()))
    (ha : Address.ofFile path = .ok a) (hc : d₀.connect a = .ok (d₁, some q)) (hi : a.InFile)
    (hl : d₁.lookup a.path = .ok (q, m)) (hj : d₁.journaled a (some q) = .ok (d₂, j, schema))
    {db : Database} (hm : migrated (locked a (some q)) j schema = .ok db)
    (hk : d.KeepsTables (d₂.save ⟨db, some q⟩)) :
    d.Serves path (d₂.save ⟨db, some q⟩) ⟨db, some q⟩ a := by
  have ⟨t, ht, _⟩ := table_of_migrated hm
  have hj := journaled_eq_ok hj
  have k₂ : d₁.Keeps d₂ := hj.keeps
  have ⟨k₃, hq⟩ := saved (hj.get?_of_migrated hm) ht
  have found {d' : Disk} (k : (d₂.save ⟨db, some q⟩).Keeps d') {n} (hq : d'.get? q = some n) :
      d'.lookup a.path = .ok (q, n) := (k₂.trans (k₃.trans k)).lookup hl hq
  constructor
  case address => exact ha
  case kept    => exact hk
  case memory  => exact fun h => absurd hi h
  case plain =>
    intro hp
    cases (Address.ofFile_of_isPlain hp).symm.trans ha
    exact ⟨rfl, hi⟩
  case file =>
    refine fun _ => ⟨by simp [ht], (rowsAt?_of_lookup (found .refl hq)).trans ht.symm, fun db' hs => ?_⟩
    have ⟨t', ht'⟩ := Option.isSome_iff_exists.mp hs
    have ⟨k, hq'⟩ := saved hq ht'
    exact (rowsAt?_of_lookup (found k hq')).trans ht'.symm
  case others =>
    exact fun db' s r n hl hr => lookup_save hl (fun he => hr (congrArg some he)) hq
  case again =>
    intro db' hs
    have ⟨t', ht'⟩ := Option.isSome_iff_exists.mp hs
    have ⟨k, hq'⟩ := saved hq ht'
    obtain ⟨d₃, hj'⟩ := hj.again hq'
    have ho := openDatabase_eq (ensure_again he ((connect_eq_ok hc).left.trans (k₂.trans (k₃.trans k)))) ha
      (connect_of_lookup hc hi (found k hq') (by simp)) hj' rfl
    exact ⟨_, _, _, ho, fun _ => ht'.symm, fun h => absurd hi h⟩

theorem serves_of_memory {d₀ d₁ : Disk} (he : d.ensure path = (os, d₀, .ok ()))
    (ha : Address.ofFile path = .ok a) (hc : d₀.connect a = .ok (d₁, none)) (hi : ¬a.InFile)
    {db : Database} (hm : migrated (locked a none) .delete .empty = .ok db) (hk : d.KeepsTables d₁) :
    d.Serves path d₁ ⟨db, none⟩ a where
  address := ha
  plain hp := by
    cases (Address.ofFile_of_isPlain hp).symm.trans ha
    exact absurd (by simp [Address.InFile, ne_nil_of_ensure he]) hi
  kept := hk
  file h := absurd h hi
  memory _ := by
    rw [migrated] at hm
    split at hm
    case isTrue  => cases hm
    case isFalse => cases hm; exact ⟨rfl, fun _ => rfl⟩
  others _ _ _ _ h _ := h
  again db' _ := by
    have k := (connect_eq_ok hc).left
    have hs : d₁.journaled a none = .ok (d₁, .delete, .empty) := rfl
    have ho := openDatabase_eq (ensure_again he k) ha (connect_of_memory hc hi) hs hm
    refine ⟨_, _, _, ho, fun h => absurd h hi, fun _ => ?_⟩
    rw [migrated] at hm
    split at hm
    case isTrue  => cases hm
    case isFalse => cases hm; rfl

theorem serves_of_opened (o : Opened d path d' c) (hk : d.KeepsTables d') : ∃ a, d.Serves path d' c a := by
  obtain @⟨ns, a, d₀, d₁, d₂, j, schema, he, ha, hc, hj, hm, rfl⟩ := o
  obtain ⟨db, file⟩ := c
  obtain ⟨k, ⟨hi, rfl⟩ | ⟨hi, q, m, rfl, hl⟩⟩ := connect_eq_ok hc
  case inl => cases hj; exact ⟨a, serves_of_memory he ha hc hi hm hk⟩
  case inr => exact ⟨a, serves_of_file he ha hc hi hl hj hm hk⟩

theorem exists_serves {x : List Log.Notice} (h : d.openDatabase path = (x, d', .ok c)) :
    ∃ a, d.Serves path d' c a := by
  have hk := d.keepsTables_openDatabase path
  rw [h] at hk
  exact serves_of_opened (opened_of_openDatabase h) hk

end Disk

end WriteBehind.Storage
