import SodiumDecl.Proofs.Runs

/-!
# Where paths lead

A path leads from the root or from the working directory along its names, and every name but
the last has to lead to a directory (`enter_eq_ok`, `locate_eq_ok`). So what a path leads to
depends on nothing but where the directories of a tree are (`locate_mono`), it is the same in all
trees in which there is anything (`locate_unique`), and it is either a directory or a place where
an entry can be put (`locate_place`).

A name at the end of a path leads one step further (`locate_join`), and the path along a
location leads to it (`locate_ofComponents`).
-/

namespace SodiumDecl

/-! ## Names -/

namespace Path

theorem toList_join (p : Path) {n : String} (hn : IsName n) :
    (p / n).text.toList =
      p.text.toList ++ (if p.text.isEmpty || p.endsInSlash then [] else ['/']) ++ n.toList := by
  have habs : (Path.mk n).isAbsolute = false := by
    cases hc : n.toList with
    | nil => simp [isAbsolute, hc]
    | cons c cs =>
      have : c ≠ '/' := fun h => hn.2.2.2.1 (by simp [hc, h])
      simpa [isAbsolute, hc] using this
  show (join p n).text.toList = _
  rw [join, habs, if_neg (by simp)]
  split <;> simp

/-- Whatever is joined to a path stands at its end. -/
theorem suffix_join (p : Path) (n : String) : n.toList <:+ (p / n).text.toList := by
  show n.toList <:+ (join p n).text.toList
  unfold join
  split
  · exact List.suffix_rfl
  split
  · simp
  · simpa using (List.suffix_cons '/' n.toList).trans (List.suffix_append p.text.toList _)

/-- The names are the pieces of a text. -/
theorem names_eq (p : Path) :
    p.names = ((p.text.toList.splitOn '/').filter (!·.isEmpty)).map String.ofList := rfl

theorem names_join (p : Path) {n : String} (hn : IsName n) : (p / n).names = p.names ++ [n] := by
  have hlast : (n.toList.splitOn '/').filter (!·.isEmpty) = [n.toList] := by
    rw [List.splitOn_eq_singleton hn.2.2.2.1]
    simp [hn.1]
  have hempty : (([] : List Char).splitOn '/').filter (!·.isEmpty) = [] := by simp
  rw [names_eq, names_eq, toList_join p hn]
  split
  case isTrue h =>
    rcases Bool.or_eq_true_iff.mp h with h | h
    · simp [String.isEmpty_iff.mp h, hlast]
    · obtain ⟨cs, hcs⟩ := List.getLast?_eq_some_iff.mp (by simpa [endsInSlash] using h)
      rw [hcs, List.append_nil, List.append_assoc, List.singleton_append,
        List.splitOn_append_cons_self, List.splitOn_append_cons_self, List.filter_append,
        List.filter_append, hlast, hempty]
      simp
  case isFalse =>
    rw [List.append_assoc, List.singleton_append, List.splitOn_append_cons_self,
      List.filter_append, hlast]
    simp

/-- A name at the end of a path is its last name. -/
theorem fileName?_join (p : Path) {n : String} (hn : IsName n) : (p / n).fileName? = some n := by
  have hkept : [n].filter (· ≠ ".") = [n] := by simp [hn.2.1]
  rw [fileName?, names_join p hn, List.filter_append, hkept, List.getLast?_concat]
  simp [hn.2.2.1]

theorem isAbsolute_join {p : Path} {n : String} (hn : IsName n) (hp : p.text ≠ "") :
    (p / n).isAbsolute = p.isAbsolute := by
  obtain ⟨c, cs, hc⟩ : ∃ c cs, p.text.toList = c :: cs :=
    List.exists_cons_of_ne_nil (by simpa using hp)
  simp [isAbsolute, toList_join p hn, hc]

theorem hasNull_join {p : Path} {n : String} (hn : IsName n) :
    (p / n).hasNull = p.hasNull := by
  have h0 : (Char.ofNat 0 : Char) ≠ '/' := by decide
  have hz : n.toList.contains (Char.ofNat 0) = false := by simpa using hn.2.2.2.2
  rw [hasNull, hasNull, toList_join p hn, List.contains_append, List.contains_append, hz]
  split <;> simp [h0]

theorem utf8ByteSize_le_join (p : Path) (n : String) (hn : IsName n) :
    p.text.utf8ByteSize ≤ (p / n).text.utf8ByteSize := by
  have h : (p / n).text = p.text ++ String.ofList
      ((if p.text.isEmpty || p.endsInSlash then [] else ['/']) ++ n.toList) := by
    apply String.toList_injective
    rw [toList_join p hn]
    simp
  rw [h, String.utf8ByteSize_append]
  omega

theorem names_ne_nil {p : Path} (hp : p.isAbsolute = false) (h : p.text ≠ "") :
    p.names ≠ [] := by
  obtain ⟨c, cs, hc⟩ : ∃ c cs, p.text.toList = c :: cs :=
    List.exists_cons_of_ne_nil (by simpa using h)
  have hs : c ≠ '/' := by simpa [isAbsolute, hc] using hp
  rw [names_eq, hc, List.splitOn_cons_eq_if_modifyHead, if_neg (by simpa using hs)]
  cases hsp : cs.splitOn '/' with
  | nil => exact absurd hsp (List.splitOn_ne_nil _ _)
  | cons w ws => simp

theorem text_join_ne_empty (p : Path) {n : String} (hn : IsName n) : (p / n).text ≠ "" := by
  intro h
  have hl := congrArg String.toList h
  rw [toList_join p hn] at hl
  simp [hn.1] at hl

/-- A piece of a text between separators has none of them, and is part of the text. -/
theorem mem_of_mem_splitOn {cs w : List Char} {c x : Char} (h : w ∈ cs.splitOn c) (hx : x ∈ w) :
    x ≠ c ∧ x ∈ cs := by
  induction cs generalizing w with
  | nil =>
    obtain rfl : w = [] := by simpa using h
    simp at hx
  | cons d cs ih =>
    rw [List.splitOn_cons_eq_if_modifyHead] at h
    split at h
    · rcases List.mem_cons.mp h with rfl | h
      · simp at hx
      · exact ⟨(ih h hx).1, List.mem_cons_of_mem _ (ih h hx).2⟩
    case isFalse hd =>
      cases hs : cs.splitOn c with
      | nil => exact absurd hs (List.splitOn_ne_nil _ _)
      | cons v vs =>
        rw [hs] at h ih
        rcases List.mem_cons.mp h with rfl | h
        · rcases List.mem_cons.mp hx with rfl | hx
          · exact ⟨by simpa using hd, by simp⟩
          · exact ⟨(ih (by simp) hx).1, List.mem_cons_of_mem _ (ih (by simp) hx).2⟩
        · have := ih (List.mem_cons_of_mem _ h) hx
          exact ⟨this.1, List.mem_cons_of_mem _ this.2⟩

/-- What is not a separator stands in a piece of the text. -/
theorem exists_mem_splitOn {cs : List Char} {c x : Char} (h : x ∈ cs) (hx : x ≠ c) :
    ∃ w ∈ cs.splitOn c, x ∈ w := by
  induction cs with
  | nil => simp at h
  | cons d cs ih =>
    rw [List.splitOn_cons_eq_if_modifyHead]
    split
    case isTrue hd =>
      have hd : d = c := by simpa using hd
      obtain ⟨w, hw, hxw⟩ := ih ((List.mem_cons.mp h).resolve_left (hd ▸ hx))
      exact ⟨w, List.mem_cons_of_mem _ hw, hxw⟩
    case isFalse =>
      cases hs : cs.splitOn c with
      | nil => exact absurd hs (List.splitOn_ne_nil _ _)
      | cons v vs =>
        rw [hs] at ih
        rcases List.mem_cons.mp h with rfl | h
        · exact ⟨x :: v, by simp, by simp⟩
        · obtain ⟨w, hw, hxw⟩ := ih h
          rcases List.mem_cons.mp hw with rfl | hw
          · exact ⟨d :: w, by simp, List.mem_cons_of_mem _ hxw⟩
          · exact ⟨w, List.mem_cons_of_mem _ hw, hxw⟩

/-- What stands between the slashes of a path is a name, `.` and `..` aside. -/
theorem isName_of_mem_names {p : Path} {n : String} (hp : p.hasNull = false) (h : n ∈ p.names)
    (h1 : n ≠ ".") (h2 : n ≠ "..") : IsName n := by
  rw [names_eq, List.mem_map] at h
  obtain ⟨w, hw, rfl⟩ := h
  obtain ⟨hw, hne⟩ := List.mem_filter.mp hw
  have hnull : Char.ofNat 0 ∉ p.text.toList := by simpa [hasNull] using hp
  refine ⟨by simpa using hne, h1, h2, fun hc => ?_, fun hc => ?_⟩
  · rw [String.toList_ofList] at hc
    exact (mem_of_mem_splitOn hw hc).1 rfl
  · rw [String.toList_ofList] at hc
    exact hnull (mem_of_mem_splitOn hw hc).2

theorem isName_or_dots {p : Path} {n : String} (hp : p.hasNull = false) (h : n ∈ p.names) :
    n = "." ∨ n = ".." ∨ IsName n := by
  by_cases h1 : n = "."
  · exact Or.inl h1
  by_cases h2 : n = ".."
  · exact Or.inr (Or.inl h2)
  · exact Or.inr (Or.inr (isName_of_mem_names hp h h1 h2))

/-- A text with anything in it but dots does not lead elsewhere. -/
theorem isName_of_mem {n : String} {c : Char} (hc : c ∈ n.toList) (hdot : c ≠ '.')
    (hs : '/' ∉ n.toList) (h0 : Char.ofNat 0 ∉ n.toList) : IsName n := by
  refine ⟨?_, ?_, ?_, hs, h0⟩
  · rintro rfl
    simp at hc
  · rintro rfl
    exact hdot (by simpa using hc)
  · rintro rfl
    exact hdot (by simpa using hc)

theorem isName_fileName (p : Profile) : IsName p.fileName := by
  cases p <;> decide

theorem names_ofComponents {l : List String} (h : ∀ n ∈ l, IsName n) :
    (ofComponents true l).names = l := by
  have hl : ∀ w ∈ l.map String.toList, '/' ∉ w := by
    intro w hw
    obtain ⟨n, hn, rfl⟩ := List.mem_map.mp hw
    exact (h n hn).2.2.2.1
  have hne : ∀ n ∈ l, (!n.toList.isEmpty) = true := by
    intro n hn
    simpa using (h n hn).1
  have ht : (ofComponents true l).text.toList =
      [] ++ '/' :: ['/'].intercalate (l.map String.toList) := by
    simp [ofComponents, String.toList_intercalate]
  rw [names_eq, ht, List.splitOn_append_cons_self, List.filter_append]
  cases l with
  | nil => simp
  | cons n ns =>
    rw [List.splitOn_intercalate _ hl (by simp)]
    have hf : ((n :: ns).map String.toList).filter (!·.isEmpty) = (n :: ns).map String.toList :=
      List.filter_eq_self.mpr fun w hw => by
        obtain ⟨m, hm, rfl⟩ := List.mem_map.mp hw
        exact hne m hm
    rw [hf]
    simp [Function.comp_def]

end Path

/-! ## Steps -/

namespace FileTree

variable {t u : FileTree}

theorem enter_eq_ok {b l : Location} {n : String} :
    t.enter b n = .ok l ↔ t.find? b = some .directory ∧
      (n = "." ∧ l = b ∨ n = ".." ∧ l = b.dropLast ∨
        n ≠ "." ∧ n ≠ ".." ∧ n.utf8ByteSize ≤ nameLimit ∧ l = b ++ [n]) := by
  unfold enter
  split
  case h_1 h => simp [h]
  case h_2 h => simp [h]
  case h_3 h =>
    by_cases h1 : n = "."
    · simp [h, h1, eq_comm]
    by_cases h2 : n = ".."
    · simp [h, h2, eq_comm]
    by_cases h3 : nameLimit < n.utf8ByteSize
    · simp [h1, h2, h3, Nat.not_le.mpr h3]
    · simp [h, h1, h2, h3, Nat.not_lt.mp h3, eq_comm]

/-- A step leads to a directory or to a place for an entry. -/
theorem enter_place {b l : Location} {n : String} (hn : n = "." ∨ n = ".." ∨ Path.IsName n)
    (h : t.enter b n = .ok l) : t.find? l = some .directory ∨ t.CanHold l := by
  obtain ⟨hb, ⟨-, rfl⟩ | ⟨-, rfl⟩ | ⟨h1, h2, -, rfl⟩⟩ := enter_eq_ok.mp h
  · exact Or.inl hb
  · exact Or.inl (find?_dropLast (by simp [hb]))
  · have hn : Path.IsName n := by simpa [h1, h2] using hn
    by_cases hd : t.find? (b ++ [n]) = some .directory
    · exact Or.inl hd
    · refine Or.inr ⟨by simp, by simpa using hb, hd, fun m hm => ?_⟩
      have hs : (t.find? b).isSome := by simp [hb]
      rcases List.mem_append.mp hm with hm | hm
      · exact isName_of_find? hs m hm
      · rwa [List.mem_singleton.mp hm]

/-- Only directories matter to a step. -/
theorem enter_mono (hd : ∀ x, t.find? x = some .directory → u.find? x = some .directory)
    {b l : Location} {n : String} (h : t.enter b n = .ok l) : u.enter b n = .ok l := by
  obtain ⟨hb, hl⟩ := enter_eq_ok.mp h
  exact enter_eq_ok.mpr ⟨hd b hb, hl⟩

theorem walk_mono (hd : ∀ x, t.find? x = some .directory → u.find? x = some .directory)
    {ns : List String} {b l : Location} (h : ns.foldlM t.enter b = .ok l) :
    ns.foldlM u.enter b = .ok l := by
  induction ns generalizing b with
  | nil => exact h
  | cons n ns ih =>
    rw [List.foldlM_cons] at h ⊢
    obtain ⟨b', hb, h⟩ := bind_eq_ok.mp h
    rw [enter_mono hd hb]
    exact ih h

theorem walk_place {ns : List String} (hn : ∀ n ∈ ns, n = "." ∨ n = ".." ∨ Path.IsName n)
    {b l : Location} (hb : t.find? b = some .directory ∨ t.CanHold b)
    (h : ns.foldlM t.enter b = .ok l) : t.find? l = some .directory ∨ t.CanHold l := by
  induction ns generalizing b with
  | nil =>
    obtain rfl : b = l := by simpa using h
    exact hb
  | cons n ns ih =>
    rw [List.foldlM_cons] at h
    obtain ⟨b', hb', h⟩ := bind_eq_ok.mp h
    exact ih (fun m hm => hn m (List.mem_cons_of_mem _ hm))
      (enter_place (hn n List.mem_cons_self) hb') h

/-- Proper names lead down one by one. -/
theorem walk_names {ns : List String} (hn : ∀ n ∈ ns, Path.IsName n) {b l : Location}
    (h : ns.foldlM t.enter b = .ok l) : l = b ++ ns := by
  induction ns generalizing b with
  | nil => simpa [eq_comm] using h
  | cons n ns ih =>
    have hm := hn n List.mem_cons_self
    rw [List.foldlM_cons] at h
    obtain ⟨b', hb, h⟩ := bind_eq_ok.mp h
    obtain ⟨-, he⟩ := enter_eq_ok.mp hb
    obtain ⟨-, rfl⟩ : _ ∧ b' = b ++ [n] := by simpa [hm.2.1, hm.2.2.1] using he
    simpa using ih (fun m hm => hn m (List.mem_cons_of_mem _ hm)) h

/-! ## Following a path -/

theorem locate_eq_ok {p : Path} {l : Location} :
    t.locate p = .ok l ↔ p.hasNull = false ∧ p.text ≠ "" ∧ p.text.utf8ByteSize < pathLimit ∧
      p.names.foldlM t.enter (if p.isAbsolute then [] else t.home) = .ok l := by
  rw [locate]
  by_cases h1 : p.hasNull = true
  · simp [h1]
  by_cases h2 : p.text = ""
  · simp [h1, h2]
  by_cases h3 : pathLimit ≤ p.text.utf8ByteSize
  · simp [h1, h2, h3, Nat.not_lt.mpr h3]
  · simp [h1, h2, h3, Nat.not_le.mp h3]

/-- Where a path leads depends on the directories alone. -/
theorem locate_mono (hh : u.home = t.home)
    (hd : ∀ x, t.find? x = some .directory → u.find? x = some .directory)
    {p : Path} {l : Location} (h : t.locate p = .ok l) : u.locate p = .ok l := by
  obtain ⟨h0, h1, h2, hw⟩ := locate_eq_ok.mp h
  refine locate_eq_ok.mpr ⟨h0, h1, h2, ?_⟩
  rw [hh]
  exact walk_mono hd hw

/-- A tree has the directories of another, and its working directory. -/
def Covers (u t : FileTree) : Prop :=
  u.home = t.home ∧ ∀ x, t.find? x = some .directory → u.find? x = some .directory

theorem Covers.refl (t : FileTree) : t.Covers t := ⟨rfl, fun _ h => h⟩

theorem Covers.trans {v : FileTree} (h : v.Covers u) (h' : u.Covers t) : v.Covers t :=
  ⟨h.1.trans h'.1, fun x hx => h.2 x (h'.2 x hx)⟩

theorem Covers.locate (h : u.Covers t) {p : Path} {l : Location} (hl : t.locate p = .ok l) :
    u.locate p = .ok l := locate_mono h.1 h.2 hl

theorem walk_unique {ns : List String} {b l l' : Location} (h : ns.foldlM t.enter b = .ok l)
    (h' : ns.foldlM u.enter b = .ok l') : l = l' := by
  induction ns generalizing b with
  | nil =>
    obtain rfl : b = l := by simpa using h
    simpa using h'
  | cons n ns ih =>
    rw [List.foldlM_cons] at h h'
    obtain ⟨x, hx, h⟩ := bind_eq_ok.mp h
    obtain ⟨y, hy, h'⟩ := bind_eq_ok.mp h'
    obtain rfl : x = y := by
      have hx := (enter_eq_ok.mp hx).2
      have hy := (enter_eq_ok.mp hy).2
      rcases hx with ⟨h1, rfl⟩ | ⟨h1, rfl⟩ | ⟨h1, h2, -, rfl⟩ <;>
        rcases hy with ⟨h3, rfl⟩ | ⟨h3, rfl⟩ | ⟨h3, h4, -, rfl⟩ <;> simp_all
    exact ih h h'

/-- A path leads to one location, if to any, as long as the working directory is the same. -/
theorem locate_unique (hh : u.home = t.home) {p : Path} {l l' : Location}
    (h : t.locate p = .ok l) (h' : u.locate p = .ok l') : l = l' := by
  have h := (locate_eq_ok.mp h).2.2.2
  have h' := (locate_eq_ok.mp h').2.2.2
  rw [hh] at h'
  exact walk_unique h h'

theorem isDirectory_iff {p : Path} : t.isDirectory p = true ↔
    ∃ l, t.locate p = .ok l ∧ t.find? l = some .directory := by
  rw [isDirectory, entry]
  cases t.locate p with
  | error e => simp
  | ok l =>
    rcases h : t.find? l with _ | _ | _
    · simp [h]
    · simp [h]
    · by_cases hs : p.endsInSlash <;> simp [h, hs]

theorem isDirectory_of_locate {p : Path} {l : Location} (h : t.locate p = .ok l) :
    t.isDirectory p = true ↔ t.find? l = some .directory := by
  simp [isDirectory_iff, h]

/-- Two trees have the same entries and the same working directory. -/
def Same (t u : FileTree) : Prop := u.home = t.home ∧ ∀ x, u.find? x = t.find? x

theorem Same.refl (t : FileTree) : t.Same t := ⟨rfl, fun _ => rfl⟩

theorem Same.covers (h : t.Same u) : u.Covers t := ⟨h.1, fun x hx => (h.2 x).trans hx⟩

/-- The directories of two trees are at the same places, the working directory too. -/
def SameDirectories (t u : FileTree) : Prop :=
  u.home = t.home ∧ ∀ x, u.find? x = some .directory ↔ t.find? x = some .directory

namespace SameDirectories

variable {v : FileTree}

theorem refl (t : FileTree) : SameDirectories t t := ⟨rfl, fun _ => Iff.rfl⟩

theorem symm (h : SameDirectories t u) : SameDirectories u t := ⟨h.1.symm, fun x => (h.2 x).symm⟩

theorem trans (h : SameDirectories t u) (h' : SameDirectories u v) : SameDirectories t v :=
  ⟨h'.1.trans h.1, fun x => (h'.2 x).trans (h.2 x)⟩

theorem covers (h : SameDirectories t u) : u.Covers t := ⟨h.1, fun x => (h.2 x).mpr⟩

theorem locate (h : SameDirectories t u) {p : Path} {l : Location} :
    u.locate p = .ok l ↔ t.locate p = .ok l :=
  ⟨h.symm.covers.locate, h.covers.locate⟩

theorem isDirectory (h : SameDirectories t u) (p : Path) : u.isDirectory p = t.isDirectory p := by
  rw [Bool.eq_iff_iff, isDirectory_iff, isDirectory_iff]
  exact exists_congr fun l => and_congr h.locate (h.2 l)

theorem put_file {l : Location} (hl : t.CanHold l) (c : ByteArray) :
    SameDirectories t (t.put l (.file c)) := by
  refine ⟨put_home t l _, fun x => ?_⟩
  rw [find?_put hl]
  split
  case isTrue h => simp [h, hl.2.2.1]
  case isFalse => rfl

end SameDirectories

/-- A path leads to a directory or to a place for an entry. -/
theorem locate_place {p : Path} {l : Location} (h : t.locate p = .ok l) :
    t.find? l = some .directory ∨ t.CanHold l := by
  obtain ⟨h0, h1, -, hw⟩ := locate_eq_ok.mp h
  have hn : ∀ n ∈ p.names, n = "." ∨ n = ".." ∨ Path.IsName n :=
    fun _ => Path.isName_or_dots h0
  cases hp : p.isAbsolute with
  | true => exact walk_place hn (Or.inl (by simp [hp])) hw
  | false =>
    obtain ⟨n, ns, hns⟩ := List.exists_cons_of_ne_nil (Path.names_ne_nil hp h1)
    rw [hns, List.foldlM_cons] at hw
    obtain ⟨b, hb, hw⟩ := bind_eq_ok.mp hw
    rw [hns] at hn
    exact walk_place (fun m hm => hn m (List.mem_cons_of_mem _ hm))
      (enter_place (hn n List.mem_cons_self) hb) hw

/-- A name at the end of a path leads one step further. -/
theorem locate_join {p : Path} (hp : p.text ≠ "") {n : String} (hn : Path.IsName n)
    {l : Location} (h : t.locate (p / n) = .ok l) :
    ∃ b, t.locate p = .ok b ∧ t.find? b = some .directory ∧ l = b ++ [n] := by
  obtain ⟨h0, -, h2, hw⟩ := locate_eq_ok.mp h
  rw [Path.names_join p hn, Path.isAbsolute_join hn hp, List.foldlM_append] at hw
  obtain ⟨b, hb, hw⟩ := bind_eq_ok.mp hw
  rw [List.foldlM_cons] at hw
  obtain ⟨l', hs, hw⟩ := bind_eq_ok.mp hw
  obtain rfl : l' = l := by simpa using hw
  obtain ⟨hd, hl⟩ := enter_eq_ok.mp hs
  refine ⟨b, locate_eq_ok.mpr ⟨?_, hp, ?_, hb⟩, hd, ?_⟩
  · rwa [Path.hasNull_join hn] at h0
  · exact Nat.lt_of_le_of_lt (Path.utf8ByteSize_le_join p n hn) h2
  · rcases hl with ⟨h, -⟩ | ⟨h, -⟩ | ⟨-, -, -, hl⟩
    · exact absurd h hn.2.1
    · exact absurd h hn.2.2.1
    · exact hl

/-- A path that leads somewhere at all leads on from the directory that it leads to in another
tree. -/
theorem locate_join_of {p : Path} (hp : p.text ≠ "") {n : String} (hn : Path.IsName n)
    {l b : Location} (h : t.locate (p / n) = .ok l) (hb : u.locate p = .ok b)
    (hd : u.find? b = some .directory) : u.locate (p / n) = .ok (b ++ [n]) := by
  obtain ⟨h0, h1, h2, hw⟩ := locate_eq_ok.mp h
  obtain ⟨-, -, -, hb⟩ := locate_eq_ok.mp hb
  refine locate_eq_ok.mpr ⟨h0, h1, h2, ?_⟩
  rw [Path.names_join p hn, Path.isAbsolute_join hn hp, List.foldlM_append] at hw ⊢
  obtain ⟨b', -, hw⟩ := bind_eq_ok.mp hw
  obtain ⟨l', hs, -⟩ := bind_eq_ok.mp hw
  have hlimit : n.utf8ByteSize ≤ nameLimit := by
    rcases (enter_eq_ok.mp hs).2 with ⟨h, -⟩ | ⟨h, -⟩ | ⟨-, -, h, -⟩
    · exact absurd h hn.2.1
    · exact absurd h hn.2.2.1
    · exact h
  have he : u.enter b n = .ok (b ++ [n]) :=
    enter_eq_ok.mpr ⟨hd, Or.inr (Or.inr ⟨hn.2.1, hn.2.2.1, hlimit, rfl⟩)⟩
  rw [hb, ok_bind, List.foldlM_cons, he]
  rfl

/-- The path along a location leads to it. -/
theorem locate_ofComponents {l x : Location} (hl : ∀ n ∈ l, Path.IsName n)
    (h : t.locate (.ofComponents true l) = .ok x) : x = l := by
  obtain ⟨-, -, -, hw⟩ := locate_eq_ok.mp h
  have ha : (Path.ofComponents true l).isAbsolute = true := by
    simp [Path.isAbsolute, Path.ofComponents]
  rw [Path.names_ofComponents hl, if_pos ha] at hw
  simpa using walk_names hl hw

end FileTree

end SodiumDecl
