import CodeNav.Proofs.Text.Split
import CodeNav.Url.Address
import Mathlib.Algebra.Group.Nat.Defs
import Mathlib.Data.List.Induction

/-!
# Network addresses are read as they are written

An IPv4 address is written as four decimal numbers, an IPv6 address as groups of hexadecimal digits of
which one run of zeros may be left out. Reading such a text gives the address back.

## Main definitions

* `Ipv4.bytes`: the four numbers of an address
* `Ipv6.IsAddress`: eight groups of sixteen bits

## Main statements

* `Ipv4.parse?_text`: an IPv4 address is read as it is written
* `Ipv6.isAddress_of_parse?`: what is read of a text in brackets has eight groups
* `Ipv6.parse?_inner`: an IPv6 address is read as it is written
-/

namespace CodeNav

/-! ### IPv4 -/

namespace Ipv4

variable {b : Nat}

/-- The four numbers of an address. -/
def bytes (address : Nat) : List Nat :=
  [3, 2, 1, 0].map fun k ↦ address / 256 ^ k % 256

theorem lt_of_mem_bytes {address : Nat} (hb : b ∈ bytes address) : b < 256 := by
  obtain ⟨k, -, rfl⟩ := List.mem_map.mp hb
  exact Nat.mod_lt _ (by decide)

theorem text_eq (address : Nat) :
    text address = Text.joinWith '.' ((bytes address).map (Nat.toDigits 10)) := by
  simp [text, bytes, Text.joinWith]

/-- Only the last 32 bits of an address are written. -/
theorem text_mod (address : Nat) : text (address % 2 ^ 32) = text address := by
  have hbytes : bytes (address % 2 ^ 32) = bytes address := by
    simp only [bytes, List.map_cons, List.map_nil, List.cons.injEq, and_true]
    omega
  rw [text_eq, text_eq, hbytes]

/-- A byte in decimal notation is read as a decimal number. -/
theorem number?_toDigits (hb : b < 256) : number? (Nat.toDigits 10 b) = some b := by
  have hall : ∀ b < 256, number? (Nat.toDigits 10 b) = some b := by decide +kernel
  exact hall b hb

theorem dot_notMem_toDigits (n : Nat) : '.' ∉ Nat.toDigits 10 n := by
  intro hmem
  have hdigit := Nat.isDigit_of_mem_toDigits (by decide) (by decide) hmem
  simp [Char.isDigit] at hdigit

/-- The labels of an address are its four numbers. -/
theorem labels_text (address : Nat) :
    labels (text address) = (bytes address).map (Nat.toDigits 10) := by
  have hsplit : Text.splitOn '.' (text address) = (bytes address).map (Nat.toDigits 10) := by
    rw [text_eq]
    refine Text.splitOn_joinWith (by simp [bytes]) fun p hp ↦ ?_
    obtain ⟨b, -, rfl⟩ := List.mem_map.mp hp
    exact dot_notMem_toDigits b
  rw [labels, hsplit]
  simp [bytes]

/-- An address is read as it is written. -/
theorem parse?_text (address : Nat) : parse? (text address) = some (address % 2 ^ 32) := by
  have hnumbers : (labels (text address)).mapM number? = some (bytes address) := by
    rw [labels_text]
    exact Text.mapM_map_eq_some fun b hb ↦ number?_toDigits (lt_of_mem_bytes hb)
  have hlength : (labels (text address)).length = 4 := by simp [labels_text, bytes]
  have hlast : (bytes address).getLast? = some (address % 256) := by simp [bytes]
  have hleading : (bytes address).dropLast =
      [address / 256 ^ 3 % 256, address / 256 ^ 2 % 256, address / 256 % 256] := by simp [bytes]
  simp only [parse?, hnumbers, hlength, hlast, hleading, Option.bind_eq_bind, Option.bind_some]
  have hbyte (k : Nat) : address / 256 ^ k % 256 ≤ 255 := Nat.le_of_lt_succ (Nat.mod_lt _ (by decide))
  simp
  omega

end Ipv4

/-! ### IPv6 -/

namespace Ipv6

variable {g : Nat} {gs groups : List Nat} {cs : List Char}

/-- Eight groups of sixteen bits. -/
structure IsAddress (groups : List Nat) : Prop where
  length : groups.length = 8
  lt : ∀ g ∈ groups, g < 2 ^ 16

/-- A digit of a group. -/
def IsHex (c : Char) : Prop := (Ipv4.digitIn? 16 c).isSome = true

theorem digitIn?_digitChar {d : Nat} (hd : d < 16) :
    Ipv4.digitIn? 16 (Nat.digitChar d) = some d := by
  have hall : ∀ d < 16, Ipv4.digitIn? 16 (Nat.digitChar d) = some d := by decide
  exact hall d hd

theorem numberIn?_concat (base : Nat) (cs : List Char) (c : Char) :
    Ipv4.numberIn? base (cs ++ [c]) =
      (Ipv4.numberIn? base cs).bind fun n ↦ (Ipv4.digitIn? base c).map (n * base + ·) := by
  simp [Ipv4.numberIn?]

/-- Hexadecimal digits are read as the number that they were made of. -/
theorem numberIn?_toDigits (n : Nat) : Ipv4.numberIn? 16 (Nat.toDigits 16 n) = some n := by
  induction n using Nat.strongRecOn with
  | ind n ih =>
    rw [Nat.toDigits_eq_if (by decide)]
    split
    · rename_i hn
      simp [Ipv4.numberIn?, digitIn?_digitChar hn]
    · rename_i hn
      rw [numberIn?_concat, ih (n / 16) (by omega), Option.bind_some,
        digitIn?_digitChar (Nat.mod_lt _ (by decide)), Option.map_some]
      exact congrArg some (by omega)

theorem exists_digitChar_of_mem_toDigits {n : Nat} {c : Char} (hc : c ∈ Nat.toDigits 16 n) :
    ∃ d < 16, c = Nat.digitChar d := by
  induction n using Nat.strongRecOn with
  | ind n ih =>
    rw [Nat.toDigits_eq_if (by decide)] at hc
    split at hc
    · rename_i hn
      exact ⟨n, hn, List.mem_singleton.mp hc⟩
    · rename_i hn
      rcases List.mem_append.mp hc with hc | hc
      · exact ih (n / 16) (by omega) hc
      · exact ⟨n % 16, Nat.mod_lt _ (by decide), List.mem_singleton.mp hc⟩

theorem isHex_of_mem_toDigits {n : Nat} {c : Char} (hc : c ∈ Nat.toDigits 16 n) : IsHex c := by
  obtain ⟨d, hd, rfl⟩ := exists_digitChar_of_mem_toDigits hc
  simp [IsHex, digitIn?_digitChar hd]

theorem not_isHex_colon : ¬ IsHex ':' := by
  have hcolon : Ipv4.digitIn? 16 ':' = none := by decide
  simp [IsHex, hcolon]

/-! ### Reading groups -/

/-- A group before a colon or the end is read as it is written. -/
theorem group_toDigits (cs : List Char) (hg : g < 2 ^ 16) (hcs : ∀ c ∈ cs.head?, ¬ IsHex c) :
    group (Nat.toDigits 16 g ++ cs) = (g, (Nat.toDigits 16 g).length, cs) := by
  have hlength : (Nat.toDigits 16 g).length ≤ 4 :=
    (Nat.length_toDigits_le_iff (by decide) (by decide)).mpr (by omega)
  have hrest : (cs.take (4 - (Nat.toDigits 16 g).length)).takeWhile
      (fun c ↦ (Ipv4.digitIn? 16 c).isSome) = [] := by
    cases cs with
    | nil => simp
    | cons c cs =>
      have hc : ¬ IsHex c := hcs c rfl
      cases 4 - (Nat.toDigits 16 g).length with
      | zero => rfl
      | succ k => rw [List.take_succ_cons]; exact List.takeWhile_cons_of_neg hc
  have hdigits : ((Nat.toDigits 16 g ++ cs).take 4).takeWhile
      (fun c ↦ (Ipv4.digitIn? 16 c).isSome) = Nat.toDigits 16 g := by
    rw [List.take_append, List.take_of_length_le hlength,
      List.takeWhile_append_of_pos fun c hc ↦ isHex_of_mem_toDigits hc, hrest, List.append_nil]
  simp only [group, hdigits, numberIn?_toDigits, Option.getD_some, List.drop_left]

/-- How a text goes on that begins with a group. -/
theorem groups?_toDigits (fuel : Nat) {seen : List Nat} (gap : Option Nat) (hg : g < 2 ^ 16)
    (hseen : seen.length < 8) :
    groups? (fuel + 1) (Nat.toDigits 16 g) seen gap = some (seen ++ [g], gap) ∧
      ∀ cs ≠ [], groups? (fuel + 1) (Nat.toDigits 16 g ++ ':' :: cs) seen gap =
        groups? fuel cs (seen ++ [g]) gap := by
  obtain ⟨d, ds, hds⟩ := List.exists_cons_of_ne_nil (Nat.toDigits_ne_nil : Nat.toDigits 16 g ≠ [])
  have hmem : d ∈ Nat.toDigits 16 g := hds ▸ List.mem_cons_self
  have hd : d ≠ ':' := fun heq ↦ not_isHex_colon (heq ▸ isHex_of_mem_toDigits hmem)
  have hcolon : ∀ rest cs, d :: cs ≠ ':' :: rest := fun _ _ heq ↦ hd (List.cons.inj heq).1
  have hne : seen.length ≠ 8 := Nat.ne_of_lt hseen
  constructor
  · have hgroup := group_toDigits [] hg (by simp)
    rw [List.append_nil] at hgroup
    rw [hds] at hgroup ⊢
    rw [groups?, if_neg hne, hgroup]
    · simp
    · exact fun rest ↦ hcolon rest ds
  · intro cs hcs
    have hgroup := group_toDigits (':' :: cs) hg (by simp [not_isHex_colon])
    rw [hds, List.cons_append] at hgroup ⊢
    rw [groups?, if_neg hne, hgroup]
    · obtain ⟨c, cs, rfl⟩ := List.exists_cons_of_ne_nil hcs
      simp
    · simp
    · exact fun rest ↦ hcolon rest _

theorem joined_cons (g : Nat) (hgs : gs ≠ []) :
    joined (g :: gs) = Nat.toDigits 16 g ++ ':' :: joined gs := by
  obtain ⟨g', gs, rfl⟩ := List.exists_cons_of_ne_nil hgs
  rfl

theorem joined_ne_nil (hgs : gs ≠ []) : joined gs ≠ [] := by
  obtain ⟨g, gs, rfl⟩ := List.exists_cons_of_ne_nil hgs
  cases gs with
  | nil => exact Nat.toDigits_ne_nil
  | cons g' gs => simp [joined_cons]

/-- Groups at the end of an address. -/
theorem groups?_joined {fuel : Nat} {seen : List Nat} {gap : Option Nat}
    (hgs : ∀ g ∈ gs, g < 2 ^ 16) (hseen : seen.length + gs.length ≤ 8)
    (hfuel : (joined gs).length < fuel) :
    groups? fuel (joined gs) seen gap = some (seen ++ gs, gap) := by
  obtain ⟨fuel, rfl⟩ : ∃ k, fuel = k + 1 := ⟨fuel - 1, by omega⟩
  induction gs generalizing fuel seen with
  | nil => simp [joined, Text.joinWith, groups?]
  | cons g gs ih =>
    have hlt : seen.length < 8 := by simp at hseen; omega
    obtain ⟨hend, hgoes⟩ := groups?_toDigits fuel gap (hgs g List.mem_cons_self) hlt
    rcases eq_or_ne gs [] with rfl | hne
    · exact hend
    · rw [joined_cons g hne] at hfuel ⊢
      obtain ⟨fuel, rfl⟩ : ∃ k, fuel = k + 1 := ⟨fuel - 1, by simp at hfuel; omega⟩
      rw [hgoes _ (joined_ne_nil hne), ih (fun g hg ↦ hgs g (List.mem_cons_of_mem _ hg))]
      · simp
      · simp at hseen ⊢; omega
      · simp at hfuel ⊢; omega

/-- Groups before a double colon. -/
theorem groups?_before_gap {fuel : Nat} (seen : List Nat) (cs : List Char) (hne : gs ≠ [])
    (hgs : ∀ g ∈ gs, g < 2 ^ 16) (hseen : seen.length + gs.length < 8)
    (hfuel : (joined gs).length + 2 + cs.length < fuel) :
    ∃ k, cs.length < k ∧ groups? fuel (joined gs ++ ':' :: ':' :: cs) seen none =
      groups? k cs (seen ++ gs) (some (seen.length + gs.length)) := by
  obtain ⟨fuel, rfl⟩ : ∃ k, fuel = k + 1 := ⟨fuel - 1, by omega⟩
  induction gs generalizing fuel seen with
  | nil => exact absurd rfl hne
  | cons g gs ih =>
    have hlt : seen.length < 8 := by simp at hseen; omega
    obtain ⟨fuel, rfl⟩ : ∃ k, fuel = k + 1 := ⟨fuel - 1, by omega⟩
    obtain ⟨-, hgoes⟩ := groups?_toDigits (fuel + 1) none (hgs g List.mem_cons_self) hlt
    rcases eq_or_ne gs [] with rfl | hne
    · refine ⟨fuel, by omega, ?_⟩
      have hfull : seen.length ≠ 7 := by simp at hseen; omega
      change groups? _ (Nat.toDigits 16 g ++ _) _ _ = _
      rw [hgoes _ (by simp), groups?, if_neg (by simp [hfull])]
      simp
    · rw [joined_cons g hne, List.append_assoc, List.cons_append]
      rw [joined_cons g hne] at hfuel
      have hseen : (seen ++ [g]).length + gs.length < 8 := by simp at hseen ⊢; omega
      obtain ⟨k, hk, heq⟩ := ih (seen ++ [g]) hne (fun g hg ↦ hgs g (List.mem_cons_of_mem _ hg))
        hseen fuel (by simp at hfuel ⊢; omega)
      refine ⟨k, hk, ?_⟩
      rw [hgoes _ (by simp), heq]
      simp [Nat.add_comm, Nat.add_left_comm]

/-! ### The run that is left out -/

/-- What stands between the brackets. -/
def inner (groups : List Nat) : List Char :=
  let (start, run) := longestRun groups
  if run < 2 then joined groups
  else joined (groups.take start) ++ [':', ':'] ++ joined (groups.drop (start + run))

theorem text_eq (groups : List Nat) : text groups = '[' :: (inner groups ++ [']']) := rfl

theorem eq_zeroRun_append (groups : List Nat) :
    groups = List.replicate (zeroRun groups) 0 ++ groups.drop (zeroRun groups) := by
  induction groups with
  | nil => rfl
  | cons g gs ih =>
    by_cases hg : g = 0
    · have hrun : zeroRun (g :: gs) = zeroRun gs + 1 := by simp [zeroRun, hg]
      rw [hrun, List.replicate_succ, List.drop_succ_cons, List.cons_append, ← ih, hg]
    · have hrun : zeroRun (g :: gs) = 0 := by simp [zeroRun, hg]
      rw [hrun]
      rfl

/-- The run that is left out is one of zeros. -/
theorem eq_of_longestRun {start run : Nat} (h : longestRun groups = (start, run)) :
    groups = groups.take start ++ List.replicate run 0 ++ groups.drop (start + run) := by
  have hbest : groups.drop (longestRun groups).1 = List.replicate (longestRun groups).2 0 ++
      groups.drop ((longestRun groups).1 + (longestRun groups).2) := by
    rw [longestRun]
    generalize List.range groups.length = places
    induction places using List.reverseRecOn with
    | nil => rfl
    | append_singleton places k ih =>
      simp only [List.foldl_append, List.foldl_cons, List.foldl_nil]
      split
      · rw [← List.drop_drop]
        exact eq_zeroRun_append (groups.drop k)
      · exact ih
  rw [h] at hbest
  rw [List.append_assoc, ← hbest, List.take_append_drop]

/-! ### Reading an address -/

/-- The eight groups of an address, of which zeros were left out at a place. -/
def filled : List Nat × Option Nat → Option (List Nat)
  | (groups, none) => if groups.length = 8 then some groups else none
  | (groups, some k) =>
    if groups.length ≤ 8 then
      some (groups.take k ++ List.replicate (8 - groups.length) 0 ++ groups.drop k)
    else none

theorem parse?_of_head?_ne (h : cs.head? ≠ some ':') :
    parse? cs = (groups? (cs.length + 2) cs [] none).bind filled := by
  simp only [parse?]
  split
  · simp at h
  · simp at h
  · rw [Option.bind_some]
    rcases groups? (cs.length + 2) cs [] none with _ | ⟨groups, _ | k⟩ <;> rfl

theorem parse?_colons (cs : List Char) :
    parse? (':' :: ':' :: cs) = (groups? (cs.length + 4) cs [] (some 0)).bind filled := by
  simp only [parse?, Option.bind_some, List.length_cons]
  rcases groups? (cs.length + 4) cs [] (some 0) with _ | ⟨groups, _ | k⟩ <;> rfl

theorem head?_joined_append (cs : List Char) (hgs : gs ≠ []) :
    (joined gs ++ cs).head? ≠ some ':' := by
  obtain ⟨g, gs, rfl⟩ := List.exists_cons_of_ne_nil hgs
  obtain ⟨d, ds, hds⟩ := List.exists_cons_of_ne_nil (Nat.toDigits_ne_nil : Nat.toDigits 16 g ≠ [])
  have hd : d ≠ ':' := fun heq ↦
    not_isHex_colon (heq ▸ isHex_of_mem_toDigits (hds ▸ List.mem_cons_self : d ∈ Nat.toDigits 16 g))
  rcases eq_or_ne gs [] with rfl | hne
  · simpa [joined, Text.joinWith, hds] using hd
  · simpa [joined_cons g hne, hds] using hd

/-- An address is read as it is written. -/
theorem parse?_inner (h : IsAddress groups) : parse? (inner groups) = some groups := by
  obtain ⟨start, run, hrun⟩ : ∃ start run, longestRun groups = (start, run) := ⟨_, _, rfl⟩
  simp only [inner, hrun]
  split
  · -- Nothing is left out.
    have hne : groups ≠ [] := fun hnil ↦ by simpa [hnil] using h.length
    have hhead : (joined groups).head? ≠ some ':' := by
      simpa using head?_joined_append [] hne
    rw [parse?_of_head?_ne hhead, groups?_joined h.lt (by simp [h.length]) (by omega)]
    simp [filled, h.length]
  · rename_i hlong
    have hgroups := eq_of_longestRun hrun
    have hlength := h.length
    generalize hbefore : groups.take start = before at hgroups ⊢
    generalize hafter : groups.drop (start + run) = after at hgroups ⊢
    subst hgroups
    have hshort : before.length + (run + after.length) = 8 := by simpa using hlength
    have hlt : ∀ g ∈ before ++ after, g < 2 ^ 16 := fun g hg ↦ h.lt g (by simp at hg ⊢; tauto)
    have hfilled : filled (before ++ after, some before.length) =
        some (before ++ List.replicate run 0 ++ after) := by
      have hzeros : 8 - (before.length + after.length) = run := by omega
      have hle : before.length + after.length ≤ 8 := by omega
      simp [filled, hzeros, hle]
    have hend (seen : List Nat) (fuel : Nat) (hseen : seen.length + after.length ≤ 8)
        (hfuel : (joined after).length < fuel) :
        groups? fuel (joined after) seen (some before.length) =
          some (seen ++ after, some before.length) :=
      groups?_joined (fun g hg ↦ hlt g (List.mem_append_right _ hg)) hseen hfuel
    rcases eq_or_ne before [] with rfl | hne
    · change parse? (':' :: ':' :: joined after) = _
      have hread := hend [] ((joined after).length + 4) (by simp at hshort ⊢; omega) (by omega)
      rw [List.length_nil] at hread
      rw [parse?_colons, hread]
      exact hfilled
    · rw [List.append_assoc, parse?_of_head?_ne (head?_joined_append _ hne)]
      obtain ⟨k, hk, heq⟩ := groups?_before_gap [] (joined after) hne
        (fun g hg ↦ hlt g (List.mem_append_left _ hg)) (by simp; omega)
        (by simp; omega : _ < (joined before ++ ([':', ':'] ++ joined after)).length + 2)
      have hgap : groups? _ (joined before ++ ([':', ':'] ++ joined after)) [] none = _ := heq
      rw [hgap, List.nil_append, List.length_nil, Nat.zero_add, hend before k (by omega) hk]
      exact hfilled

/-! ### What is read -/

theorem lt_of_numberIn? {base n : Nat} (h : Ipv4.numberIn? base cs = some n) :
    n < base ^ cs.length := by
  induction cs using List.reverseRecOn generalizing n with
  | nil =>
    obtain rfl := Option.some.inj h
    exact Nat.one_pos
  | append_singleton cs c ih =>
    rw [numberIn?_concat] at h
    obtain ⟨m, hm, h⟩ := Option.bind_eq_some_iff.mp h
    obtain ⟨d, hd, rfl⟩ := Option.map_eq_some_iff.mp h
    have hdigit : d < base := of_decide_eq_true (Option.filter_eq_some_iff.mp hd).2
    calc m * base + d < (m + 1) * base := by rw [Nat.succ_mul]; omega
      _ ≤ base ^ cs.length * base := Nat.mul_le_mul_right _ (ih hm)
      _ = base ^ (cs ++ [c]).length := by simp [Nat.pow_succ]

theorem group_lt (cs : List Char) : (group cs).1 < 2 ^ 16 := by
  simp only [group]
  generalize hdigits : (cs.take 4).takeWhile (fun c ↦ (Ipv4.digitIn? 16 c).isSome) = digits
  have hlength : digits.length ≤ 4 := by
    rw [← hdigits]
    exact Nat.le_trans (List.takeWhile_sublist _).length_le (List.length_take_le 4 cs)
  cases hnumber : Ipv4.numberIn? 16 digits with
  | none => simp
  | some n =>
    exact Nat.lt_of_lt_of_le (lt_of_numberIn? hnumber) (Nat.pow_le_pow_right (by decide) hlength)

theorem tailByte?_le (h : tailByte? cs = some g) : g ≤ 255 := by
  simp only [tailByte?] at h
  split at h
  · cases h
  · obtain rfl := Option.some.inj h
    exact Nat.zero_le _
  · cases h
  · exact of_decide_eq_true (Option.filter_eq_some_iff.mp h).2

theorem tailGroups?_lt (h : tailGroups? cs = some gs) : ∀ g ∈ gs, g < 2 ^ 16 := by
  simp only [tailGroups?] at h
  split at h
  · rename_i a b c d hbytes
    obtain rfl := Option.some.inj h
    have hle : ∀ x ∈ [a, b, c, d], x ≤ 255 := by
      intro x hx
      obtain ⟨p, -, hp⟩ := Text.exists_of_mem_mapM hbytes hx
      exact tailByte?_le hp
    simp at hle ⊢
    omega
  · cases h

/-- Groups have sixteen bits. -/
theorem groups?_lt {fuel : Nat} {seen : List Nat} {gap gap' : Option Nat}
    (hseen : ∀ g ∈ seen, g < 2 ^ 16) (h : groups? fuel cs seen gap = some (gs, gap')) :
    ∀ g ∈ gs, g < 2 ^ 16 := by
  have hconcat {cs rest : List Char} {seen : List Nat} {value length : Nat}
      (hseen : ∀ g ∈ seen, g < 2 ^ 16) (hgroup : group cs = (value, length, rest)) :
      ∀ g ∈ seen ++ [value], g < 2 ^ 16 := by
    intro g hg
    have hlt := group_lt cs
    rw [hgroup] at hlt
    rcases List.mem_append.mp hg with hg | hg
    · exact hseen g hg
    · exact List.mem_singleton.mp hg ▸ hlt
  fun_induction groups? fuel cs seen gap with
  | case1 | case3 | case5 | case6 | case8 | case9 | case12 => cases h
  | case2 =>
    obtain ⟨rfl, -⟩ := Prod.mk.inj (Option.some.inj h)
    exact hseen
  | case4 _ _ _ _ _ ih => exact ih hseen h
  | case7 =>
    obtain ⟨last, hlast, heq⟩ := Option.map_eq_some_iff.mp h
    obtain ⟨rfl, -⟩ := Prod.mk.inj heq
    intro g hg
    rcases List.mem_append.mp hg with hg | hg
    · exact hseen g hg
    · exact tailGroups?_lt hlast g hg
  | case10 _ _ _ _ _ _ _ _ _ _ _ _ hgroup ih => exact ih (hconcat hseen hgroup) h
  | case11 _ _ _ _ _ _ _ _ _ hgroup =>
    obtain ⟨rfl, -⟩ := Prod.mk.inj (Option.some.inj h)
    exact hconcat hseen hgroup

/-- What is read has eight groups. -/
theorem isAddress_of_filled {read : List Nat × Option Nat} (hread : ∀ g ∈ read.1, g < 2 ^ 16)
    (h : filled read = some groups) : IsAddress groups := by
  obtain ⟨gs, _ | k⟩ := read
  · simp only [filled] at h
    split at h
    · rename_i hlength
      obtain rfl := Option.some.inj h
      exact ⟨hlength, hread⟩
    · cases h
  · simp only [filled] at h
    split at h
    · rename_i hlength
      obtain rfl := Option.some.inj h
      refine ⟨by simp; omega, fun g hg ↦ ?_⟩
      rw [List.mem_append, List.mem_append] at hg
      rcases hg with (hg | hg) | hg
      · exact hread g (List.mem_of_mem_take hg)
      · exact List.eq_of_mem_replicate hg ▸ Nat.two_pow_pos 16
      · exact hread g (List.mem_of_mem_drop hg)
    · cases h

theorem isAddress_of_parse? (h : parse? cs = some groups) : IsAddress groups := by
  have hfilled : ∃ fuel rest gap read, groups? fuel rest [] gap = some read ∧
      filled read = some groups := by
    by_cases hcolons : ∃ rest, cs = ':' :: ':' :: rest
    · obtain ⟨rest, rfl⟩ := hcolons
      rw [parse?_colons] at h
      exact ⟨_, _, _, Option.bind_eq_some_iff.mp h⟩
    · have hhead : cs.head? ≠ some ':' := by
        intro hhead
        obtain ⟨rest, rfl⟩ : ∃ rest, cs = ':' :: rest := List.head?_eq_some_iff.mp hhead
        simp only [parse?] at h
        split at h
        · exact hcolons ⟨_, by assumption⟩
        · cases h
        · rename_i hne
          exact hne _ rfl
      rw [parse?_of_head?_ne hhead] at h
      exact ⟨_, _, _, Option.bind_eq_some_iff.mp h⟩
  obtain ⟨fuel, rest, gap, read, hread, hfilled⟩ := hfilled
  exact isAddress_of_filled (groups?_lt (by simp) hread) hfilled

end Ipv6

end CodeNav
