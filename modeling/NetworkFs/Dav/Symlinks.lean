import NetworkFs.Dav.Metadata

/-!
# Symbolic links

`dav_symlink` creates a file with the mode of a link and writes the target to it; `dav_readlink`
reads it back into an array and ends it with a NUL.

* `davSymlink_absent`, `davReadlink_found`: the two functions.
* `symlink_identity_iff`: a link comes back as it was made, exactly if `dav_getattr` reports
  anything.
-/

namespace NetworkFs.Dav

open Control Grammar Wrapper Text Data

variable {σ ρ : Type}

/-- The file that `dav_symlink` makes. -/
def linkTo (target : Bytes) : Resource :=
  { (Resource.plain []).patch (own "mode") (some (modeValue (sIFLNK ||| 0o777))) with
    content := target }

theorem linkTo_mode (target : Bytes) :
    (linkTo target).dead (own "mode") = some (modeValue (sIFLNK ||| 0o777)) :=
  (Resource.plain []).patch_same (own "mode") (some (modeValue (sIFLNK ||| 0o777)))

theorem linkTo_size (target : Bytes) : (linkTo target).dead (own "size") = none :=
  (Resource.plain []).patch_other (show own "size" ≠ own "mode" by decide)
    (some (modeValue (sIFLNK ||| 0o777)))

/-- The attributes of a link. -/
theorem attributes_linkTo {o : Opts} {target : Bytes} {st : Stat} (h : Attributes o (linkTo target) st)
    (htarget : target.length < 2 ^ 31) :
    st.mode = sIFLNK ||| 0o777 ∧ st.size = target.length := by
  have hnumber : strtol 10 (Nat.toDigits 10 target.length ++ []) = ((target.length : ℤ), []) :=
    strtol_toDigits (by norm_num) le_rfl (by omega) nofun
  rw [List.append_nil] at hnumber
  constructor
  · rw [h.mode, linkTo_mode, Option.elim_some, strtol_modeValue (by decide), toUnsigned_natCast]
    decide
  · rw [h.size, linkTo_size, Option.elim_none]
    exact congrArg Prod.fst hnumber

section Symlink

variable {env : Env σ} {files : σ → Files} {url href : Path → Text}
  (hk : KeepsFiles env files url href) (srv : DavServer) {path : Path} {target : Bytes}
  {t : Thread (Mem σ)} (h : AtRest t)

include hk h

theorem davSymlink_absent (hr : files t.mem.env path = none) (htarget : target.length < 2 ^ 31) :
    Makes files (davSymlink env srv target path : Dav σ ρ ℤ) t 0
      (Function.update (files t.mem.env) path (some (linkTo target))) := by
  obtain ⟨t₁, hprobe, h₁, hfs₁⟩ := probe_missing hk srv h hr
  obtain ⟨t₂, hmknod, h₂, hfs₂⟩ := davMknod_absent (ρ := ℤ) hk srv h₁ (by rw [hfs₁]; exact hr)
    (show isDir (sIFLNK ||| 0o777) = false by decide) 0
  have hnew : files t₂.mem.env path =
      some ((Resource.plain []).patch (own "mode") (some (modeValue (sIFLNK ||| 0o777)))) := by
    rw [hfs₂, Function.update_self]
  obtain ⟨t₃, hwrite, h₃, hfs₃⟩ : Makes files (davWrite env srv path target (0 : ℕ) : Dav σ ℤ ℤ) t₂ _ _ :=
    davWrite_found hk srv h₂ hnew (Nat.zero_le _)
  rw [toInt_natCast htarget] at hwrite
  have hsteps : symlinkSteps env srv target path t₁ = (.error (.ret 0), t₃) := by
    rw [symlinkSteps, Ctl.bind_ok hmknod, if_neg (not_not_intro rfl)]
    refine (Ctl.bind_ok hwrite).trans ?_
    rw [if_neg (by omega)]
    rfl
  refine ⟨t₃, Ctl.call_ret ?_, h₃, ?_⟩
  · rw [Ctl.bind_ok hprobe, Ctl.bind_error hsteps]
  · have hcontent : splice 0 ([] : Bytes) 0 target = target := by
      rw [splice_of_le 0 target (Nat.zero_le _)]
      simp
    rw [hfs₃, hfs₂, Function.update_idem, hfs₁]
    show Function.update (files t.mem.env) path (some ⟨splice 0 [] 0 target, _⟩) = _
    rw [hcontent]
    rfl

omit hk h in
/-- The element after `as` is set. -/
theorem take_set_length {β : Type} (as : List β) {bs : List β} (h : bs ≠ []) (b : β) :
    ((as ++ bs).set as.length b).take (as.length + 1) = as ++ [b] := by
  obtain ⟨c, cs, rfl⟩ := List.exists_cons_of_ne_nil h
  have hset : (as ++ c :: cs).set as.length b = (as ++ [b]) ++ cs := by simp
  rw [hset]
  exact List.take_left' (by simp)

theorem davReadlink_found {r : Resource} (hr : files t.mem.env path = some r)
    {buf : Bytes} (hbuf : 1 < buf.length) (hbuf' : buf.length < 2 ^ 31) :
    ∃ buf', Makes files (davReadlink env srv path buf : Dav σ ρ (ℤ × Bytes)) t (0, buf')
        (files t.mem.env) ∧
      buf'.take (min r.content.length (buf.length - 1) + 1) = r.content.take (buf.length - 1) ++ [0] := by
  set n := buf.length - 1 with hn
  have hlen : (buf.take n).length = n := by
    rw [List.length_take]
    omega
  have hread : Makes files (davRead env srv path (buf.take n) (0 : ℕ) : Dav σ ρ (ℤ × Bytes)) t _ _ :=
    davRead_found hk srv h hr (by omega) (by omega)
  rw [overlaid_zero, hlen, Nat.sub_zero] at hread
  have htake : (r.content.take n).length = min n r.content.length := List.length_take
  refine ⟨(r.content.take n ++ (buf.take n).drop (min n r.content.length) ++ buf.drop n).set
    (min n r.content.length : ℕ) 0, hread.bind fun t' h' hfs => ?_, ?_⟩
  · dsimp only
    rw [if_neg (by simp), ← hfs, Int.toNat_natCast]
    exact .pure h' _
  · rw [Nat.min_comm r.content.length, ← htake, List.append_assoc]
    refine take_set_length (r.content.take n) ?_ 0
    intro hnil
    have hrest : (buf.drop n).length = 0 := by
      rw [(List.append_eq_nil_iff.mp hnil).2]
      rfl
    rw [List.length_drop] at hrest
    omega

/-- What `symlink` and then `readlink` should be: the link is made, its attributes are those of a
    link, and the array then holds what of the target fits in it, and a NUL. -/
def SymlinkIdentity (ρ : Type) (env : Env σ) (srv : DavServer) (target : Bytes) (path : Path)
    (size : ℕ) (t : Thread (Mem σ)) : Prop :=
  ∀ stbuf (buf : Bytes), buf.length = size → ∃ t₁ st t₂ buf' t₃,
    (davSymlink env srv target path : Dav σ ρ ℤ) t = (.ok 0, t₁) ∧
    (davGetattr env srv path stbuf : Dav σ ρ (ℤ × Stat)) t₁ = (.ok (0, st), t₂) ∧
    st.mode = sIFLNK ||| 0o777 ∧ st.size = target.length ∧
    (davReadlink env srv path buf : Dav σ ρ (ℤ × Bytes)) t₂ = (.ok (0, buf'), t₃) ∧
    buf'.take (min target.length (size - 1) + 1) = target.take (size - 1) ++ [0]

/-- `dav_getattr` leaves `*stbuf` as it was. -/
theorem not_symlinkIdentity (hr : files t.mem.env path = none) (htarget : target.length < 2 ^ 31)
    (size : ℕ) (hno : ¬url path <+: href path) : ¬SymlinkIdentity ρ env srv target path size t := by
  intro hidentity
  obtain ⟨t₁, hlink, h₁, hfs₁⟩ := davSymlink_absent (ρ := ρ) hk srv h hr htarget
  have hr₁ : files t₁.mem.env path = some (linkTo target) := by
    rw [hfs₁, Function.update_self]
  obtain ⟨u, st, t₂, -, -, hrun, hget, hmode, -⟩ := hidentity zeroStat (List.replicate size 0)
    List.length_replicate
  obtain ⟨-, rfl⟩ := Prod.mk.inj (hlink.symm.trans hrun)
  obtain ⟨st', hmakes, -, hunfilled⟩ := davGetattr_found (ρ := ρ) hk srv h₁ hr₁ zeroStat
  have hst : st = zeroStat := (congrArg Prod.snd (hmakes.unique hget).1).trans (hunfilled hno)
  rw [hst] at hmode
  exact absurd hmode (by decide)

/-- A link comes back as it was made, exactly if the server calls the file by its URL. -/
theorem symlink_identity_iff (hr : files t.mem.env path = none)
    (_hfree : tfind path t.mem.table = none) (_hne : target ≠ []) (_hnul : 0 ∉ target)
    (htarget : target.length < 2 ^ 31) {size : ℕ} (hsize : 1 < size) (hsize' : size < 2 ^ 31) :
    SymlinkIdentity ρ env srv target path size t ↔ url path <+: href path := by
  constructor
  · intro hidentity
    by_contra hno
    exact not_symlinkIdentity hk srv h hr htarget size hno hidentity
  · intro hpre stbuf buf hbuf
    obtain ⟨t₁, hlink, h₁, hfs₁⟩ := davSymlink_absent (ρ := ρ) hk srv h hr htarget
    have hr₁ : files t₁.mem.env path = some (linkTo target) := by
      rw [hfs₁, Function.update_self]
    obtain ⟨st, ⟨t₂, hget, h₂, hfs₂⟩, hextends, -⟩ := davGetattr_found (ρ := ρ) hk srv h₁ hr₁ stbuf
    obtain ⟨hmode, hlength⟩ := attributes_linkTo (hextends hpre) htarget
    obtain ⟨buf', ⟨t₃, hread, -⟩, hholds⟩ := davReadlink_found (ρ := ρ) hk srv h₂
      (by rw [hfs₂]; exact hr₁) (by rw [hbuf]; exact hsize) (by rw [hbuf]; exact hsize')
    rw [hbuf] at hholds
    exact ⟨t₁, st, t₂, buf', t₃, hlink, hget, hmode, hlength, hread, hholds⟩

end Symlink

/-- A target of two bytes, of which one fits in the array. -/
theorem symlink_identity_cut :
    SymlinkIdentity ℤ (serving (keepFiles (fun _ => []) fun _ => [])) lockingServer [120, 121]
      [47, 98] 2 (entered (onlyFile []) []) :=
  (symlink_identity_iff (keepsFiles_keepFiles _ _) lockingServer (t := entered (onlyFile []) [])
    ⟨rfl, rfl⟩ rfl rfl (by decide) (by decide) (by decide) (by decide) (by decide)).mpr
    List.prefix_rfl

/-- The server calls the file by its path: `dav_getattr` returns zero and reports nothing. -/
theorem not_symlink_identity_path :
    ¬SymlinkIdentity ℤ (serving (keepFiles (fun _ => "http://h/b".toList) fun _ => "/b".toList))
      lockingServer [120, 121] [47, 98] 2 (entered (onlyFile []) []) :=
  not_symlinkIdentity (keepsFiles_keepFiles _ _) lockingServer (t := entered (onlyFile []) [])
    ⟨rfl, rfl⟩ rfl (by decide) 2 (by decide)

end NetworkFs.Dav
