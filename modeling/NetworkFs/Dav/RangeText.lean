import NetworkFs.Dav.Tokens

/-!
# The text of a range

`with_range` (`common/wrapper/curl.h` lines 81–82) prints the range of `dav_get` and `dav_put`
into an array for two numbers of ten digits.

* `davGet_ranges`, `davPut_ranges`: the ranges of the requests they send.
* `rangeText_eq_iff`: when the text is the interval that was asked for.
-/

namespace NetworkFs.Dav

open Control Grammar Wrapper Text

/-- `snprintf(range, sizeof(range), "%zd-%zd", (offset), (size) + (offset) - 1)` into
    `char range[sizeof("-") + 2 * 10]`. The sum of a `size_t` and an `off_t` is unsigned, and
    printed as signed. -/
def rangeText (range : Range) : Text :=
  snprintf ("-".length + 1 + 2 * 10)
    (showInt range.offset ++ '-' :: showInt (toSsize (toSize (range.size + range.offset - 1))))

/-- The text `a-b` of an interval. -/
def intervalText (first last : ℕ) : Text := Nat.toDigits 10 first ++ '-' :: Nat.toDigits 10 last

/-- What `snprintf` leaves is the whole text exactly when it fits with its NUL. -/
theorem snprintf_eq_iff (n : ℕ) (text : Text) : snprintf n text = text ↔ text.length ≤ n - 1 := by
  rw [snprintf, List.take_eq_self_iff]

theorem showInt_natCast (n : ℕ) : showInt n = Nat.toDigits 10 n := by
  rw [showInt, if_neg (by omega), Int.natAbs_natCast]

theorem toSsize_toSize {n : ℕ} (h : n < 2 ^ 63) : toSsize (toSize n) = n := by
  have hsize : toSize (n : ℤ) = n := by
    unfold toSize
    omega
  rw [hsize, toSsize, Int.bmod_eq_of_le] <;> omega

theorem rangeText_eq {offset size : ℕ} (hsize : 1 ≤ size) (hend : offset + size ≤ 2 ^ 63 - 1) :
    rangeText ⟨offset, size⟩ = snprintf 22 (intervalText offset (offset + size - 1)) := by
  have hlast : ((size : ℤ) + offset - 1) = ((offset + size - 1 : ℕ) : ℤ) := by omega
  unfold rangeText intervalText
  simp only [hlast]
  rw [toSsize_toSize (by omega), showInt_natCast, showInt_natCast]
  rfl

/-! ## The requests -/

section Requests

variable {σ ρ : Type} (env : Env σ) (srv : DavServer) (path : Path) (data : Bytes) (offset : ℤ)
  (t : Thread (Mem σ))

/-- The requests that were sent since `t` have the range. -/
def Ranged (t : Thread (Mem σ)) (range : Option Range) (sent : List Request) : Prop :=
  ∀ request ∈ sent.drop t.mem.sent.length, request.range = range

variable {t} in
theorem ranged_same (range : Option Range) : Ranged t range t.mem.sent := by
  intro request hmem
  rw [List.drop_length] at hmem
  exact absurd hmem List.not_mem_nil

variable {t} in
theorem ranged_append {range : Option Range} {request : Request} (h : request.range = range) :
    Ranged t range (t.mem.sent ++ [request]) := by
  intro request' hmem
  rw [List.drop_left] at hmem
  rw [List.mem_singleton.mp hmem, h]

variable {t} in
theorem leaves_performOrDie {Q : List Request → List FileLock → Prop} (code : CurlCode) (status : ℕ)
    (hQ : Q t.mem.sent t.mem.table) : Leaves (performOrDie code status : Dav σ ρ Unit) t Q := by
  rw [performOrDie]
  cases code == CurlCode.ok with
  | true => exact .of_eq rfl hQ
  | false => exact .of_eq rfl hQ

/-- `dav_get` sends the range it was asked for. -/
theorem davGet_ranges : Leaves (davGet env srv path data offset : Dav σ ρ (ℤ × Bytes)) t
    fun sent _ => Ranged t (getRange data offset) sent := by
  have hbody : t.ex.has = false → ∀ s, Leaves (getBody env path data offset : Dav σ ρ Buffer)
      (atEnv t s) fun sent _ => Ranged t (getRange data offset) sent := by
    intro h s
    have hsend : ∀ s, Leaves (curlEasyPerform env ⟨.get, path, [], getRange data offset, .none⟩ >>=
        fun reply => Ctl.doOnce (performOrDie (if (bufferAppendAll ⟨data, 0⟩ reply.chunks).1 then
          reply.code else curleWriteError) reply.status) >>= fun _ =>
            pure (bufferAppendAll ⟨data, 0⟩ reply.chunks).2 : Dav σ ρ Buffer) (atEnv t s)
        fun sent _ => Ranged t (getRange data offset) sent := by
      intro s
      set request : Request := ⟨.get, path, [], getRange data offset, .none⟩ with hrequest
      have hperform : (curlEasyPerform env request : Dav σ ρ Reply) (atEnv t s) =
          (.ok (env.perform request s).1, logged request (atEnv t (env.perform request s).2)) := rfl
      refine Leaves.step hperform (Leaves.bind (Leaves.doOnce ?_) fun _ _ => ⟨rfl, rfl⟩)
      exact leaves_performOrDie _ _ (ranged_append rfl)
    unfold getBody setGetRange
    by_cases hsome : (getRange data offset).isSome = true
    · rw [if_pos hsome]
      exact Leaves.of_breaks (breaks_setRange env) h (fun _ => ranged_same _) fun _ => hsend _
    · rw [if_neg hsome, pure_bind]
      exact hsend s
  refine Leaves.step (Ctl.gets_apply _ t) ?_
  cases h : t.ex.has with
  | true => exact .of_eq (Ctl.bind_ok (withBuffer_pending h)) (ranged_same _)
  | false =>
    refine Leaves.bind (Leaves.withBuffer h (Leaves.bind ?_ fun _ _ => ⟨rfl, rfl⟩))
      fun _ _ => ⟨rfl, rfl⟩
    exact Leaves.withCurl env _ _ (fun _ => ranged_same _) fun h _ => hbody h _

/-- `dav_put` sends the range it was asked for. -/
theorem davPut_ranges : Leaves (davPut env srv path data offset : Dav σ ρ ℤ) t
    fun sent _ => Ranged t (some ⟨offset, data.length⟩) sent := by
  cases hlock : srv.options.useLock with
  | true => exact leaves_davPut env srv hlock (ranged_same _) path data offset (ranged_append rfl)
  | false =>
    refine Leaves.testSuccess ?_
    cases h : t.ex.has with
    | true => exact .of_eq (withBuffer_pending h) (ranged_same _)
    | false =>
      refine Leaves.withBuffer h (Leaves.bind_unit (Leaves.throwable ?_))
      refine Leaves.withCurl env _ _ (fun _ => ranged_same _) fun _ _ =>
        Leaves.bind_unit (Leaves.throwable (Leaves.withBuffer h ?_))
      simp only [rdlockHeaderIf, hlock, Bool.false_eq_true, if_false, pure_bind]
      refine Leaves.of_breaks (breaks_setRange env) h (fun _ => ranged_same _) fun _ => ?_
      exact leaves_perform_unlock env _ false (ranged_append rfl)

end Requests

/-- The requests of `dav_get` and `dav_put` have the range of the array. It is printed as the
    interval itself exactly when the two numbers have no more than twenty digits together. -/
theorem rangeText_eq_iff (data : Bytes) (offset : ℕ) (hsize : 1 ≤ data.length)
    (hend : offset + data.length ≤ 2 ^ 63 - 1) :
    getRange data offset = some ⟨offset, data.length⟩ ∧
      (rangeText ⟨offset, data.length⟩ = intervalText offset (offset + data.length - 1) ↔
        (Nat.toDigits 10 offset).length + (Nat.toDigits 10 (offset + data.length - 1)).length
          ≤ 20) ∧
      ∀ {σ : Type} (env : Env σ) (srv : DavServer) (path : Path) (t : Thread (Mem σ)),
        Leaves (davGet env srv path data offset : Dav σ Unit (ℤ × Bytes)) t
          (fun sent _ => Ranged t (some ⟨offset, data.length⟩) sent) ∧
        Leaves (davPut env srv path data offset : Dav σ Unit ℤ) t
          fun sent _ => Ranged t (some ⟨offset, data.length⟩) sent := by
  have hrange : getRange data offset = some ⟨offset, data.length⟩ := by
    rw [getRange, if_neg]
    rintro ⟨-, hempty⟩
    omega
  refine ⟨hrange, ?_, fun env srv path t => ⟨?_, davPut_ranges env srv path data offset t⟩⟩
  · rw [rangeText_eq hsize hend, snprintf_eq_iff]
    simp only [intervalText, List.length_append, List.length_cons]
    omega
  · have hget := davGet_ranges (ρ := Unit) env srv path data offset t
    rwa [hrange] at hget

theorem rangeText_first_byte :
    getRange [0] 0 = some ⟨0, 1⟩ ∧ rangeText ⟨0, 1⟩ = intervalText 0 0 := by
  obtain ⟨hrange, htext, -⟩ := rangeText_eq_iff [0] 0 (by decide) (by decide)
  exact ⟨hrange, htext.mpr (by decide)⟩

/-- A page behind ten billion bytes: the end loses its last two digits. -/
theorem rangeText_cut :
    rangeText ⟨10000000000, 4096⟩ = "10000000000-100000040".toList ∧
      rangeText ⟨10000000000, 4096⟩ ≠ intervalText 10000000000 (10000000000 + 4096 - 1) := by
  decide +kernel

end NetworkFs.Dav
