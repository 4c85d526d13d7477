import WriteBehind.Proofs.Record.Object

namespace WriteBehind.Record

variable {r : Record} {d e : Draft} {f g : Field} {m : Member} {ms ms' as bs : List Member}

theorem Member.Names.eq (hf : m.Names f) (hg : m.Names g) : f = g := by
  have hn : f.name.toList = g.name.toList := Json.Quoted.inside_unique hf hg
  have ho : some f = some g := by rw [← Field.ofName?_name f, hn, Field.ofName?_name g]
  exact Option.some.inj ho

theorem Member.IsExtra.not_names (hx : m.IsExtra) : ¬m.Names f := by
  intro hf
  obtain ⟨n, hn, ho⟩ := hx.name
  rw [Json.Quoted.inside_unique hn hf, Field.ofName?_name] at ho
  contradiction

theorem has_put : (d.put r f).has g = (d.has g || decide (f = g)) := by
  cases f <;> cases g <;> simp [Draft.put, Draft.has]

theorem put_comm : (d.put r f).put r g = (d.put r g).put r f := by
  cases f <;> cases g <;> rfl

namespace Fills

theorem append (h : Fills r ms d e) {c : Draft} (h' : Fills r ms' e c) : Fills r (ms ++ ms') d c := by
  induction h with
  | nil d                => exact h'
  | extra hm hx _ hi     => exact .extra hm hx (hi h')
  | own hm hn hv hd _ hi => exact .own hm hn hv hd (hi h')

theorem exists_of_append (h : Fills r (ms ++ ms') d e) : ∃ c, Fills r ms d c ∧ Fills r ms' c e := by
  induction ms generalizing d with
  | nil => exact ⟨d, .nil d, h⟩
  | cons m ms hi =>
    cases h with
    | extra hm hx h =>
      obtain ⟨c, h, h'⟩ := hi h
      exact ⟨c, .extra hm hx h, h'⟩
    | own hm hn hv hd h =>
      obtain ⟨c, h, h'⟩ := hi h
      exact ⟨c, .own hm hn hv hd h, h'⟩

theorem swap {m' : Member} (h : Fills r (m :: m' :: ms) d e) : Fills r (m' :: m :: ms) d e := by
  cases h with
  | extra hm hx h =>
    cases h with
    | extra hm' hx' h       => exact .extra hm' hx' (.extra hm hx h)
    | own hm' hn' hv' hd' h => exact .own hm' hn' hv' hd' (.extra hm hx h)
  | @own _ f _ _ _ hm hn hv hd h =>
    cases h with
    | extra hm' hx' h => exact .extra hm' hx' (.own hm hn hv hd h)
    | @own _ g _ _ _ hm' hn' hv' hd' h =>
      rw [put_comm] at h
      rw [has_put, Bool.or_eq_false_iff, decide_eq_false_iff_not] at hd'
      have hd : (d.put r g).has f = false := by
        rw [has_put, hd, Bool.false_or, decide_eq_false_iff_not]
        exact Ne.symm hd'.right
      exact .own hm' hn' hv' hd'.left (.own hm hn hv hd h)

theorem perm (h : Fills r ms d e) (hp : ms.Perm ms') : Fills r ms' d e := by
  induction hp generalizing d with
  | nil          => exact h
  | swap         => exact h.swap
  | trans _ _ hi hi' => exact hi' (hi h)
  | cons m _ hi  =>
    cases h with
    | extra hm hx h     => exact .extra hm hx (hi h)
    | own hm hn hv hd h => exact .own hm hn hv hd (hi h)

theorem has_iff (h : Fills r ms d e) :
    e.has f = true ↔ d.has f = true ∨ ∃ m ∈ ms, m.Names f := by
  induction h with
  | nil => simp
  | extra _ hx _ hi => simp [hi, hx.not_names]
  | @own m g _ _ _ _ hn _ _ _ hi =>
    have hg : g = f ↔ m.Names f := ⟨fun h => h ▸ hn, hn.eq⟩
    simp [hi, has_put, hg, or_assoc]

theorem not_names (h : Fills r ms d e) (hd : d.has f = true) : ∀ m ∈ ms, ¬m.Names f := by
  induction h with
  | nil => simp
  | extra _ hx _ hi => exact List.forall_mem_cons.mpr ⟨hx.not_names, hi hd⟩
  | own _ hn _ hd' _ hi =>
    refine List.forall_mem_cons.mpr ⟨fun hf => ?_, hi (by rw [has_put, hd, Bool.true_or])⟩
    obtain rfl := hn.eq hf
    exact absurd hd (Bool.eq_false_iff.mp hd')

theorem alone (h : Fills r (as ++ m :: bs) d e) (hn : m.Names f) : ∀ m' ∈ as ++ bs, ¬m'.Names f := by
  cases h.perm List.perm_middle with
  | extra _ hx _ => exact absurd hn hx.not_names
  | own _ hn' _ _ h =>
    obtain rfl := hn'.eq hn
    exact h.not_names (by rw [has_put, decide_eq_true rfl, Bool.or_true])

theorem hasField (h : Fills r ms d e) (hm : m ∈ ms) (hn : m.Names f) : r.HasField m.value f := by
  induction h with
  | nil => contradiction
  | extra _ hx _ hi =>
    rcases List.mem_cons.mp hm with rfl | hm
    · exact absurd hn hx.not_names
    · exact hi hm
  | own _ hn' hv _ _ hi =>
    rcases List.mem_cons.mp hm with rfl | hm
    · exact hn'.eq hn ▸ hv
    · exact hi hm

end Fills

def Draft.lacking (d : Draft) : List Field := Field.all.filter (!d.has ·)

theorem mem_lacking : f ∈ d.lacking ↔ d.has f = false := by
  have hf : f ∈ Field.all := by cases f <;> decide
  simp [Draft.lacking, hf]

theorem nodup_lacking : d.lacking.Nodup :=
  List.Pairwise.filter _ (by decide : Field.all.Nodup)

theorem lacking_perm (hd : d.has f = false) : d.lacking.Perm (f :: (d.put r f).lacking) := by
  have hf : f ∉ (d.put r f).lacking := by simp [mem_lacking, has_put]
  refine (List.perm_ext_iff_of_nodup nodup_lacking (List.nodup_cons.mpr ⟨hf, nodup_lacking⟩)).mpr ?_
  intro g
  rw [List.mem_cons, mem_lacking, mem_lacking, has_put, Bool.or_eq_false_iff, decide_eq_false_iff_not]
  by_cases hg : g = f
  case pos => simp [hg, hd]
  case neg => simp [hg, Ne.symm hg]

theorem Fills.exists_own (h : Fills r ms d e) (he : ∀ f, e.has f = true) :
    ∃ (own : Field → Member) (others : List Member), ms.Perm (d.lacking.map own ++ others) ∧
      (∀ f ∈ d.lacking, (own f).Names f ∧ r.HasField (own f).value f) ∧ ∀ m ∈ others, m.IsExtra := by
  induction h with
  | nil d =>
    have hd : d.lacking = [] := by simp [Draft.lacking, he]
    exact ⟨fun _ => ⟨[], [], [], [], [], []⟩, [], by simp [hd], by simp [hd], by simp⟩
  | @extra m _ _ _ _ hx _ hi =>
    obtain ⟨own, others, hp, ho, ho'⟩ := hi he
    exact ⟨own, m :: others, (hp.cons m).trans List.perm_middle.symm, ho,
      List.forall_mem_cons.mpr ⟨hx, ho'⟩⟩
  | @own m f l d _ _ hn hv hd _ hi =>
    obtain ⟨own, others, hp, ho, ho'⟩ := hi he
    have hl : d.lacking.Perm (f :: (d.put r f).lacking) := lacking_perm hd
    have hf : f ∉ (d.put r f).lacking := by simp [mem_lacking, has_put]
    have hm : (d.put r f).lacking.map (fun g => if g = f then m else own g)
        = (d.put r f).lacking.map own :=
      List.map_congr_left fun g hg => if_neg (ne_of_mem_of_not_mem hg hf)
    refine ⟨fun g => if g = f then m else own g, others, ?_, fun g hg => ?_, ho'⟩
    case refine_1 =>
      have hq := (hl.map fun g => if g = f then m else own g).append_right others
      rw [List.map_cons, if_pos rfl, hm] at hq
      exact (hp.cons m).trans hq.symm
    case refine_2 =>
      by_cases hgf : g = f
      case pos =>
        simp only [hgf, if_true]
        exact ⟨hn, hv⟩
      case neg =>
        simp only [hgf, if_false]
        refine ho g (mem_lacking.mpr ?_)
        rw [has_put, mem_lacking.mp hg, Bool.false_or, decide_eq_false_iff_not]
        exact Ne.symm hgf

theorem Fills.of_others (hs : ∀ m ∈ ms, m.IsSpaced) (hx : ∀ m ∈ ms, m.IsExtra) : Fills r ms d d := by
  induction ms with
  | nil => exact .nil d
  | cons m ms hi =>
    have ⟨hm, hs⟩ := List.forall_mem_cons.mp hs
    have ⟨hm', hx⟩ := List.forall_mem_cons.mp hx
    exact .extra hm hm' (hi hs hx)

theorem fillUp_iff : FillUp r ms ↔ r.IsSpelledBy ms := by
  constructor
  case mp =>
    rintro ⟨e, hf, hr⟩
    obtain ⟨_, he⟩ := record_eq_ok hr
    obtain ⟨own, others, hp, ho, ho'⟩ := hf.exists_own he
    exact ⟨fun m hm => (hf.isWellFormed m hm).spaced, own, others, hp,
      fun f => ho f (mem_lacking.mpr (by cases f <;> rfl)), ho'⟩
  case mpr =>
    rintro ⟨hs, own, others, hp, ho, ho'⟩
    have ⟨hs, hs'⟩ := List.forall_mem_append.mp fun m hm => hs m (hp.mem_iff.mpr hm)
    have put (f : Field) {d e : Draft} {l : List Member} (hd : d.has f = false)
        (h : Fills r l (d.put r f) e) : Fills r (own f :: l) d e :=
      .own (hs _ (List.mem_map_of_mem (by cases f <;> decide))) (ho f).left (ho f).right hd h
    refine ⟨Field.all.foldl (Draft.put · r ·) {}, Fills.perm ?_ hp.symm, rfl⟩
    exact put .id rfl (put .user rfl (put .kind rfl (put .start rfl (put .finish rfl (put .level rfl
      (.of_others hs' ho'))))))

-- An object is read as a record just when it spells it.
theorem read_objectText_iff_isSpelledBy (hms : ∀ m ∈ ms, m.IsWellFormed) :
    read (objectText ms) = .ok r ↔ r.IsSpelledBy ms :=
  (read_objectText_iff hms).trans fillUp_iff

end WriteBehind.Record
