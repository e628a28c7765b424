/-
# Text split at markers

Text built by formatting holds a marker (a separator, or a label) between two
fields. Markers that never overlap (`Apart`) can be told apart wherever they
stand: two splits of one text are the same, or one marker is inside a field
of the other (`split_cases`). So a text splits one way exactly when no marker
is inside its fields (`splits_once_iff`, `splits_once_twice_iff`).

A marker of lines, each after the separator (`lined`), overlaps another only
where a later line of one starts as a first line of the other
(`apart_of_lined`).
-/
import Mathlib.Data.List.Infix
import Mathlib.Data.Set.Image
import WillowSdk.Lib.Joined

namespace Markers

variable {α : Type}

/-- A marker that starts inside another is the other, from its start. -/
def Apart (F : Set (List α)) : Prop :=
  ∀ m ∈ F, ∀ m' ∈ F, ∀ u v, m = u ++ v → v ≠ [] → v <+: m' ∨ m' <+: v → u = [] ∧ m = m'

/-- No marker is inside the text. -/
def Free (F : Set (List α)) (text : List α) : Prop := ∀ m ∈ F, ¬ m <:+: text

theorem Apart.mono {F G : Set (List α)} (h : Apart G) (hsub : F ⊆ G) : Apart F :=
  fun m hm m' hm' => h m (hsub hm) m' (hsub hm')

section Split

variable {F : Set (List α)} {m m' xs ys xs' ys' : List α}

/-- Where one split's marker starts no later than the other's, it is the
other's, or ends before it. -/
theorem split_after (hF : Apart F) (hm : m ∈ F) (hm' : m' ∈ F) {u : List α}
    (h : m ++ ys = u ++ (m' ++ ys')) :
    (u = [] ∧ m = m' ∧ ys = ys') ∨ ∃ w, u = m ++ w ∧ ys = w ++ m' ++ ys' := by
  rcases List.append_eq_append_iff.mp h with ⟨w, hu, hys⟩ | ⟨v, hsplit, hrest⟩
  · exact .inr ⟨w, hu, by rw [hys, List.append_assoc]⟩
  · by_cases hv : v = []
    · subst hv
      have hu : u = m ++ [] := by simpa using hsplit.symm
      have hys : ys = [] ++ m' ++ ys' := by simpa using hrest.symm
      exact .inr ⟨[], hu, hys⟩
    · have hpre : v <+: m' ∨ m' <+: v :=
        List.prefix_or_prefix_of_prefix ⟨ys, hrest.symm⟩ ⟨ys', rfl⟩
      obtain ⟨rfl, rfl⟩ := hF m hm m' hm' u v hsplit hv hpre
      have hys : ys = ys' := by simpa using h
      exact .inl ⟨rfl, rfl, hys⟩

/-- Two splits are one, or one's marker is in a field of the other. -/
theorem split_cases (hF : Apart F) (hm : m ∈ F) (hm' : m' ∈ F)
    (h : xs ++ m ++ ys = xs' ++ m' ++ ys') :
    (xs = xs' ∧ m = m' ∧ ys = ys') ∨ (∃ w, xs' = xs ++ m ++ w ∧ ys = w ++ m' ++ ys') ∨
      ∃ w, xs = xs' ++ m' ++ w ∧ ys' = w ++ m ++ ys := by
  rw [List.append_assoc, List.append_assoc] at h
  rcases List.append_eq_append_iff.mp h with ⟨u, hxs', hrest⟩ | ⟨u, hxs, hrest⟩
  · rcases split_after hF hm hm' hrest with ⟨rfl, rfl, rfl⟩ | ⟨w, rfl, hys⟩
    · exact .inl ⟨by simpa using hxs'.symm, rfl, rfl⟩
    · exact .inr (.inl ⟨w, by rw [hxs', List.append_assoc], hys⟩)
  · rcases split_after hF hm' hm hrest with ⟨rfl, rfl, rfl⟩ | ⟨w, rfl, hys'⟩
    · exact .inl ⟨by simpa using hxs, rfl, rfl⟩
    · exact .inr (.inr ⟨w, by rw [hxs, List.append_assoc], hys'⟩)

/-- Text with a marker inside is neither what stands before it nor after. -/
theorem ne_around (hne : [] ∉ F) (hm : m ∈ F) (a b : List α) :
    a ≠ a ++ m ++ b ∧ b ≠ a ++ m ++ b := by
  have hpos : 0 < m.length := List.length_pos_iff.mpr fun h => hne (h ▸ hm)
  refine ⟨?_, ?_⟩
  all_goals
    intro h
    have hlen := congrArg List.length h
    simp only [List.length_append] at hlen
    omega

/-- The text splits at a marker of the family in this one way. -/
def SplitsOnce (F : Set (List α)) (xs m ys : List α) : Prop :=
  ∀ xs' m' ys', m' ∈ F → xs' ++ m' ++ ys' = xs ++ m ++ ys → xs' = xs ∧ m' = m ∧ ys' = ys

theorem splits_once_iff (hF : Apart F) (hne : [] ∉ F) (hm : m ∈ F) :
    SplitsOnce F xs m ys ↔ Free F xs ∧ Free F ys := by
  refine ⟨fun honce => ⟨?_, ?_⟩, fun hfree => ?_⟩
  · intro m' hm' hinside
    obtain ⟨a, b, rfl⟩ := hinside
    obtain ⟨ha, -, -⟩ := honce a m' (b ++ m ++ ys) hm' (by simp)
    exact (ne_around hne hm' a b).1 ha
  · intro m' hm' hinside
    obtain ⟨a, b, rfl⟩ := hinside
    obtain ⟨-, -, hb⟩ := honce (xs ++ m ++ a) m' b hm' (by simp)
    exact (ne_around hne hm' a b).2 hb
  · obtain ⟨hxs, hys⟩ := hfree
    intro xs' m' ys' hm' h
    rcases split_cases hF hm' hm h with heq | ⟨w, rfl, -⟩ | ⟨w, -, rfl⟩
    · exact heq
    · exact absurd ⟨xs', w, rfl⟩ (hxs m' hm')
    · exact absurd ⟨w, ys', rfl⟩ (hys m' hm')

/-- The text splits at a marker of each family in this one way. -/
def SplitsOnceTwice (F G : Set (List α)) (x m y n z : List α) : Prop :=
  ∀ x' m' y' n' z', m' ∈ F → n' ∈ G → x' ++ m' ++ y' ++ n' ++ z' = x ++ m ++ y ++ n ++ z →
    x' = x ∧ m' = m ∧ y' = y ∧ n' = n ∧ z' = z

/-- A marker of the second family may stand before the first's, and one of
the first's after the second's: no split uses it. -/
theorem splits_once_twice_iff {F G : Set (List α)} (hFG : Apart (F ∪ G)) (hne : [] ∉ F ∪ G)
    (hdisjoint : ∀ m ∈ F, m ∉ G) {x m y n z : List α} (hm : m ∈ F) (hn : n ∈ G) :
    SplitsOnceTwice F G x m y n z ↔ Free F x ∧ Free F y ∧ Free G y ∧ Free G z := by
  have hG : Apart G := hFG.mono Set.subset_union_right
  refine ⟨fun honce => ⟨?_, ?_, ?_, ?_⟩, fun hfree => ?_⟩
  · intro m' hm' hinside
    obtain ⟨a, b, rfl⟩ := hinside
    obtain ⟨ha, -⟩ := honce a m' (b ++ m ++ y) n z hm' hn (by simp)
    exact (ne_around hne (.inl hm') a b).1 ha
  · intro m' hm' hinside
    obtain ⟨a, b, rfl⟩ := hinside
    obtain ⟨-, -, hb, -⟩ := honce (x ++ m ++ a) m' b n z hm' hn (by simp)
    exact (ne_around hne (.inl hm') a b).2 hb
  · intro n' hn' hinside
    obtain ⟨a, b, rfl⟩ := hinside
    obtain ⟨-, -, ha, -⟩ := honce x m a n' (b ++ n ++ z) hm hn' (by simp)
    exact (ne_around hne (.inr hn') a b).1 ha
  · intro n' hn' hinside
    obtain ⟨a, b, rfl⟩ := hinside
    obtain ⟨-, -, -, -, hb⟩ := honce x m (y ++ n ++ a) n' b hm hn' (by simp)
    exact (ne_around hne (.inr hn') a b).2 hb
  · obtain ⟨hFx, hFy, hGy, hGz⟩ := hfree
    intro x' m' y' n' z' hm' hn' h
    have hsplit : x' ++ m' ++ (y' ++ n' ++ z') = x ++ m ++ (y ++ n ++ z) := by simpa using h
    rcases split_cases hFG (.inl hm') (.inl hm) hsplit with ⟨rfl, rfl, hrest⟩ | ⟨w, rfl, -⟩ | ⟨w, -, hw⟩
    · have hneG : [] ∉ G := fun h => hne (.inr h)
      have honce : SplitsOnce G y n z := (splits_once_iff hG hneG hn).mpr ⟨hGy, hGz⟩
      obtain ⟨hy, hn, hz⟩ := honce y' n' z' hn' hrest
      exact ⟨rfl, rfl, hy, hn, hz⟩
    · exact absurd ⟨x', w, rfl⟩ (hFx m' hm')
    · -- the other split's first marker is after this one's: in `y`, or past the second
      rcases split_cases hFG (.inl hm') (.inr hn) hw.symm with ⟨-, rfl, -⟩ | ⟨v, rfl, -⟩ | ⟨v, -, hv⟩
      · exact absurd hn (hdisjoint m' hm')
      · exact absurd ⟨w, v, rfl⟩ (hFy m' hm')
      · have hinside : n' <:+: z := ⟨v ++ m' ++ y', z', by rw [hv]; simp⟩
        exact absurd hinside (hGz n' hn')

end Split

/-! ### Markers of lines -/

/-- The lines, each after the separator. -/
def lined (c : α) (ls : List (List α)) : List α := ls.flatMap (c :: ·)

@[simp] theorem lined_nil (c : α) : lined c [] = [] := rfl

@[simp] theorem lined_cons (c : α) (l : List α) (ls : List (List α)) :
    lined c (l :: ls) = c :: (l ++ lined c ls) := by simp [lined]

/-- What follows a separator in a marker is its last lines. -/
theorem lined_cut {c : α} {ls : List (List α)} (hls : ∀ l ∈ ls, c ∉ l) :
    ∀ {u t : List α}, lined c ls = u ++ c :: t →
      ∃ as bs, ls = as ++ bs ∧ u = lined c as ∧ c :: t = lined c bs := by
  induction ls with
  | nil => intro u t h; simp at h
  | cons l ls ih =>
    intro u t h
    cases u with
    | nil => exact ⟨[], l :: ls, rfl, rfl, h.symm⟩
    | cons x u =>
      rw [lined_cons, List.cons_append] at h
      obtain ⟨rfl, hrest⟩ := List.cons.inj h
      rcases List.append_eq_append_iff.mp hrest with ⟨w, rfl, hw⟩ | ⟨w, rfl, hw⟩
      · obtain ⟨as, bs, rfl, rfl, ht⟩ := ih (fun l hl => hls l (.tail _ hl)) hw
        exact ⟨l :: as, bs, rfl, by simp, ht⟩
      · cases w with
        | nil => exact ⟨[u], ls, by simp, by simp, by simpa using hw⟩
        | cons y w =>
          obtain ⟨rfl, -⟩ := List.cons.inj hw
          exact absurd (by simp) (hls _ (.head _))

/-- Of two markers that start alike, one's first line starts as the other's. -/
theorem lined_prefix {c : α} {a b : List α} {as bs : List (List α)}
    (h : lined c (a :: as) <+: lined c (b :: bs)) : a <+: b ∨ b <+: a := by
  rw [lined_cons, lined_cons, List.cons_prefix_cons] at h
  obtain ⟨-, hrest⟩ := h
  have ha : a <+: b ++ lined c bs := (List.prefix_append _ _).trans hrest
  have hb : b <+: b ++ lined c bs := List.prefix_append _ _
  exact List.prefix_or_prefix_of_prefix ha hb

/-- Of two markers of several lines that start alike, the first line is one. -/
theorem lined_first {c : α} {a a' b b' : List α} {as bs : List (List α)} (ha : c ∉ a) (hb : c ∉ b)
    (h : lined c (a :: a' :: as) <+: lined c (b :: b' :: bs)) : a = b := by
  obtain ⟨t, ht⟩ := h
  simp only [lined_cons, List.cons_append, List.append_assoc, List.cons.injEq, true_and] at ht
  exact (Joined.cut_inj ha hb ht).1

/-- Markers of lines are apart when none starts as another, and no later line
of one is alike with a first line of another. -/
theorem apart_of_lined {c : α} {L : Set (List (List α))} (hclean : ∀ ls ∈ L, ∀ l ∈ ls, c ∉ l)
    (hstart : ∀ ls ∈ L, ∀ ls' ∈ L, lined c ls <+: lined c ls' → ls = ls')
    (hlater : ∀ ls ∈ L, ∀ ls' ∈ L, ∀ l ∈ ls.tail, ∀ l' ∈ ls'.head?, ¬ l <+: l' ∧ ¬ l' <+: l) :
    Apart (lined c '' L) := by
  intro m hm m' hm' u v huv hv hpre
  obtain ⟨ls, hls, rfl⟩ := hm
  obtain ⟨ls', hls', rfl⟩ := hm'
  cases ls' with
  | nil =>
    have hnil : [] = ls := hstart [] hls' ls hls List.nil_prefix
    rw [← hnil] at huv
    exact absurd (List.append_eq_nil_iff.mp huv.symm).2 hv
  | cons l' ls' =>
    obtain ⟨t, rfl⟩ : ∃ t, v = c :: t := by
      cases v with
      | nil => exact absurd rfl hv
      | cons x t =>
        rw [lined_cons, List.cons_prefix_cons, List.cons_prefix_cons] at hpre
        rcases hpre with ⟨rfl, -⟩ | ⟨rfl, -⟩ <;> exact ⟨t, rfl⟩
    obtain ⟨as, bs, rfl, rfl, ht⟩ := lined_cut (hclean ls hls) huv
    cases as with
    | nil =>
      refine ⟨rfl, ?_⟩
      rw [ht] at hpre
      rcases hpre with h | h
      · exact congrArg _ (hstart _ hls _ hls' h)
      · exact congrArg _ (hstart _ hls' _ hls h).symm
    | cons a as =>
      cases bs with
      | nil => simp at ht
      | cons b bs =>
        obtain ⟨hbl, hlb⟩ := hlater _ hls _ hls' b (by simp) l' (by simp)
        rw [ht] at hpre
        rcases hpre with h | h
        · rcases lined_prefix h with h | h
          · exact absurd h hbl
          · exact absurd h hlb
        · rcases lined_prefix h with h | h
          · exact absurd h hlb
          · exact absurd h hbl

end Markers
