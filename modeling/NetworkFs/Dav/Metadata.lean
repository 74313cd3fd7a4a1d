import NetworkFs.Dav.Resources
import NetworkFs.Dav.Writing

/-!
# Modes, owners and devices

`dav_chmod`, `dav_chown` and `dav_mknod` keep modes and owners as dead properties, and
`dav_getattr` reads them back. The mode is a number in base eight. The owner is two numbers with a
colon between them; the second one is read from the colon on, where there is no number. The device
is not stored at all.

* `strtol_modeValue`, `strtol_ownerValue`: what is read back.
* `metadata_kept_iff`: when all of it comes back.
-/

namespace NetworkFs.Dav

open Control Grammar Wrapper Text Data

variable {σ ρ : Type}

/-! ## The values -/

theorem strtol_modeValue {mode : ℕ} (h : mode < 2 ^ 32) : strtol 8 (modeValue mode) = ((mode : ℤ), []) := by
  have hlen : (Nat.toDigits 8 mode).length ≤ 11 :=
    (Nat.length_toDigits_le_iff (by norm_num) (by norm_num)).mpr (by omega)
  have hread : strtol 8 (Nat.toDigits 8 mode ++ []) = ((mode : ℤ), []) :=
    strtol_toDigits (by norm_num) (by norm_num) (by omega) nofun
  rw [List.append_nil] at hread
  rw [modeValue, snprintf_of_lt (by omega), hread]

/-- The array is too short for two long numbers, but never cuts the first one. -/
theorem ownerValue_eq (uid gid : ℕ) : ∃ rest,
    ownerValue uid gid = showInt (toInt uid) ++ ':' :: rest := by
  have hbound : (toInt uid).natAbs < 10 ^ 10 := by
    unfold toInt
    have h1 := Int.bmod_lt (x := uid) (m := 2 ^ 32) (by norm_num)
    have h2 := Int.le_bmod (x := uid) (m := 2 ^ 32) (by norm_num)
    omega
  have hlen := length_showInt_le (by norm_num) hbound
  refine ⟨(showInt (toInt gid)).take (20 - (showInt (toInt uid)).length), ?_⟩
  have hpos : 21 - (showInt (toInt uid)).length = 20 - (showInt (toInt uid)).length + 1 := by omega
  rw [ownerValue, snprintf, List.take_append, List.take_of_length_le (by omega), hpos,
    List.take_succ_cons]

theorem toUnsigned_toInt {n : ℕ} (h : n < 2 ^ 32) : toUnsigned (toInt n) = n := by
  have hmod : (n : ℤ).bmod (2 ^ 32) % ((2 ^ 32 : ℕ) : ℤ) = n % ((2 ^ 32 : ℕ) : ℤ) := Int.bmod_emod
  unfold toUnsigned toInt
  omega

/-- The first number is the user, and the second is not read. -/
theorem strtol_ownerValue {uid : ℕ} (h : uid < 2 ^ 32) (gid : ℕ) :
    toUnsigned (strtol 10 (ownerValue uid gid)).1 = uid ∧
      toUnsigned (strtol 10 (strtol 10 (ownerValue uid gid)).2).1 = 0 := by
  obtain ⟨rest, hvalue⟩ := ownerValue_eq uid gid
  have hcolon : ∀ c, (':' :: rest).head? = some c → isDigitOf 10 c = false := by
    intro c hc
    rw [← Option.some.inj hc]
    decide
  have hbound : -(2 ^ 63) ≤ toInt uid ∧ toInt uid < 2 ^ 63 := by
    unfold toInt
    have h1 := Int.bmod_lt (x := uid) (m := 2 ^ 32) (by norm_num)
    have h2 := Int.le_bmod (x := uid) (m := 2 ^ 32) (by norm_num)
    omega
  rw [hvalue, strtol_showInt hbound.1 hbound.2 hcolon]
  dsimp only
  rw [toUnsigned_toInt h, strtol_of_not_digit (by decide) (by decide) (by decide) (by decide)]
  simp [toUnsigned]

/-! ## The attributes afterwards -/

/-- `m` returns zero, and then `dav_getattr` returns zero with attributes in `P`, whatever `*stbuf`
    holds on entry. -/
def AfterwardsReports (env : Env σ) (srv : DavServer) (path : Path) (m : Dav σ ρ ℤ) (P : Stat → Prop)
    (t : Thread (Mem σ)) : Prop :=
  ∀ stbuf, ∃ t₁ st t₂, m t = (.ok 0, t₁) ∧
    (davGetattr env srv path stbuf : Dav σ ρ (ℤ × Stat)) t₁ = (.ok (0, st), t₂) ∧ P st

section Kept

variable {env : Env σ} {files : σ → Files} {url href : Path → Text}
  (hk : KeepsFiles env files url href) (srv : DavServer) {path : Path} {r : Resource}
  {t : Thread (Mem σ)}

include hk

theorem afterwardsReports_iff {m : Dav σ ρ ℤ} {fs : Files} {P : Stat → Prop} {q : Prop}
    (hm : Makes files m t 0 fs) (hr : fs path = some r)
    (hP : ∀ st, Attributes srv.options r st → (P st ↔ q)) (hnot : ∃ st, ¬P st) :
    AfterwardsReports env srv path m P t ↔ url path <+: href path ∧ q := by
  obtain ⟨t₁, hrun, h₁, hfs⟩ := hm
  have hr₁ : files t₁.mem.env path = some r := by
    rw [hfs]
    exact hr
  constructor
  · intro hreports
    obtain ⟨bad, hbad⟩ := hnot
    obtain ⟨u, st, t₂, hrun', hget, hst⟩ := hreports bad
    obtain ⟨-, rfl⟩ := Prod.mk.inj (hrun.symm.trans hrun')
    obtain ⟨st', hmakes, hextends, hunfilled⟩ := davGetattr_found (ρ := ρ) hk srv h₁ hr₁ bad
    have hsame : st = st' := congrArg Prod.snd (hmakes.unique hget).1
    rw [hsame] at hst
    have hpre : url path <+: href path := by
      by_contra hno
      rw [hunfilled hno] at hst
      exact hbad hst
    exact ⟨hpre, (hP st' (hextends hpre)).mp hst⟩
  · rintro ⟨hpre, hq⟩ stbuf
    obtain ⟨st, ⟨t₂, hget, -⟩, hextends, -⟩ := davGetattr_found (ρ := ρ) hk srv h₁ hr₁ stbuf
    exact ⟨t₁, st, t₂, hrun, hget, (hP st (hextends hpre)).mpr hq⟩

variable (h : AtRest t) (hr : files t.mem.env path = some r)

include h

/-- The mode always comes back. -/
theorem chmod_kept_iff (hr : files t.mem.env path = some r) {mode : ℕ} (hmode : mode < 2 ^ 32) :
    AfterwardsReports env srv path (davChmod env srv path mode : Dav σ ρ ℤ)
      (fun st => st.mode = mode) t ↔ url path <+: href path := by
  rw [afterwardsReports_iff (q := True) hk srv (davChmod_found hk srv h hr mode)
    (Function.update_self _ _ _), and_true]
  · intro st hst
    rw [hst.mode, Resource.patch_same, Option.elim_some, strtol_modeValue hmode,
      toUnsigned_natCast, Nat.mod_eq_of_lt hmode]
    exact iff_of_true rfl trivial
  · exact ⟨{ zeroStat with mode := mode + 1 }, Nat.succ_ne_self mode⟩

/-- The user comes back, and group zero. -/
theorem chown_kept_iff (hr : files t.mem.env path = some r) {uid gid : ℕ} (huid : uid < 2 ^ 32) :
    AfterwardsReports env srv path (davChown env srv path uid gid : Dav σ ρ ℤ)
      (fun st => st.uid = uid ∧ st.gid = gid) t ↔ url path <+: href path ∧ gid = 0 := by
  rw [afterwardsReports_iff hk srv (davChown_found hk srv h hr uid gid)
    (Function.update_self _ _ _)]
  · intro st hst
    obtain ⟨hread, hrest⟩ := strtol_ownerValue huid gid
    rw [hst.uid, hst.gid, Resource.patch_same, Option.elim_some, Option.elim_some,
      hread, hrest]
    exact ⟨fun hall => hall.2.symm, fun hzero => ⟨rfl, hzero.symm⟩⟩
  · exact ⟨{ zeroStat with uid := uid + 1 }, fun hall => Nat.succ_ne_self uid hall.1⟩

/-- The mode of a device comes back, and device zero. -/
theorem mknod_kept_iff (hr : files t.mem.env path = none) {mode rdev : ℕ} (hmode : mode < 2 ^ 32)
    (hdevice : isDevice mode = true) :
    AfterwardsReports env srv path (davMknod env srv path mode rdev : Dav σ ρ ℤ)
      (fun st => st.mode = mode ∧ st.rdev = rdev) t ↔ url path <+: href path ∧ rdev = 0 := by
  have hdir : isDir mode = false := by
    unfold isDevice at hdevice
    rw [isDir, beq_eq_false_iff_ne]
    intro hdir
    rw [hdir] at hdevice
    exact absurd hdevice (by decide)
  rw [afterwardsReports_iff hk srv (davMknod_absent hk srv h hr hdir rdev)
    (Function.update_self _ _ _)]
  · intro st hst
    rw [hst.mode, hst.rdev, Resource.patch_same, Option.elim_some, Option.elim_some,
      strtol_modeValue hmode, toUnsigned_natCast, Nat.mod_eq_of_lt hmode, if_pos hdevice, strtol_nil]
    have hzero : toSize 0 = 0 := by simp [toSize]
    rw [hzero]
    exact ⟨fun hall => hall.2.symm, fun hzero => ⟨rfl, hzero.symm⟩⟩
  · exact ⟨{ zeroStat with mode := mode + 1 }, fun hall => Nat.succ_ne_self mode hall.1⟩

/-- Modes, owners and devices come back exactly if the group and the device are zero and the server
    calls the files by their URLs. -/
theorem metadata_kept_iff (hr : files t.mem.env path = some r) {new : Path}
    (hnew : files t.mem.env new = none) {mode uid gid device rdev : ℕ} (hmode : mode < 2 ^ 32)
    (huid : uid ≤ 2 ^ 32 - 2) (_hgid : gid ≤ 2 ^ 32 - 2) (hdevice : device < 2 ^ 32)
    (hisDevice : isDevice device = true) (_hrdev : rdev < 2 ^ 31) :
    (AfterwardsReports env srv path (davChmod env srv path mode : Dav σ ρ ℤ)
        (fun st => st.mode = mode) t ∧
      AfterwardsReports env srv path (davChown env srv path uid gid : Dav σ ρ ℤ)
        (fun st => st.uid = uid ∧ st.gid = gid) t ∧
      AfterwardsReports env srv new (davMknod env srv new device rdev : Dav σ ρ ℤ)
        (fun st => st.mode = device ∧ st.rdev = rdev) t) ↔
    (url path <+: href path ∧ url new <+: href new) ∧ gid = 0 ∧ rdev = 0 := by
  rw [chmod_kept_iff hk srv h hr hmode, chown_kept_iff hk srv h hr (by omega),
    mknod_kept_iff hk srv h hnew hdevice hisDevice]
  tauto

end Kept

/-- A user, no group, and device zero. -/
theorem metadata_kept_user :
    AfterwardsReports (serving (keepFiles (fun _ => []) fun _ => [])) lockingServer [47, 97]
        (davChmod (serving (keepFiles (fun _ => []) fun _ => [])) lockingServer [47, 97] 0o100600 :
          Dav Files ℤ ℤ) (fun st => st.mode = 0o100600) (entered (onlyFile []) []) ∧
      AfterwardsReports (serving (keepFiles (fun _ => []) fun _ => [])) lockingServer [47, 97]
        (davChown (serving (keepFiles (fun _ => []) fun _ => [])) lockingServer [47, 97] 1000 0 :
          Dav Files ℤ ℤ) (fun st => st.uid = 1000 ∧ st.gid = 0) (entered (onlyFile []) []) ∧
      AfterwardsReports (serving (keepFiles (fun _ => []) fun _ => [])) lockingServer [47, 98]
        (davMknod (serving (keepFiles (fun _ => []) fun _ => [])) lockingServer [47, 98] 0o020600 0 :
          Dav Files ℤ ℤ) (fun st => st.mode = 0o020600 ∧ st.rdev = 0) (entered (onlyFile []) []) :=
  (metadata_kept_iff (keepsFiles_keepFiles _ _) lockingServer (t := entered (onlyFile []) []) ⟨rfl, rfl⟩
    rfl rfl (by decide) (by decide) (by decide) (by decide) (by decide) (by decide)).mpr
    ⟨⟨List.prefix_rfl, List.prefix_rfl⟩, rfl, rfl⟩

/-- Group 100 comes back as group zero, and device 259 as device zero. -/
theorem metadata_lost_group :
    ¬AfterwardsReports (serving (keepFiles (fun _ => []) fun _ => [])) lockingServer [47, 97]
        (davChown (serving (keepFiles (fun _ => []) fun _ => [])) lockingServer [47, 97] 1000 100 :
          Dav Files ℤ ℤ) (fun st => st.uid = 1000 ∧ st.gid = 100) (entered (onlyFile []) []) ∧
      ¬AfterwardsReports (serving (keepFiles (fun _ => []) fun _ => [])) lockingServer [47, 98]
        (davMknod (serving (keepFiles (fun _ => []) fun _ => [])) lockingServer [47, 98] 0o020600 259 :
          Dav Files ℤ ℤ) (fun st => st.mode = 0o020600 ∧ st.rdev = 259) (entered (onlyFile []) []) := by
  constructor
  · intro hreports
    have hzero := ((chown_kept_iff (keepsFiles_keepFiles _ _) lockingServer (t := entered (onlyFile []) [])
      ⟨rfl, rfl⟩ rfl (by decide)).mp hreports).2
    exact absurd hzero (by decide)
  · intro hreports
    have hzero := ((mknod_kept_iff (keepsFiles_keepFiles _ _) lockingServer (t := entered (onlyFile []) [])
      ⟨rfl, rfl⟩ rfl (by decide) (by decide)).mp hreports).2
    exact absurd hzero (by decide)

end NetworkFs.Dav
