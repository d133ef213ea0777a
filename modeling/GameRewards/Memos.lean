import GameRewards.Contract

/-!
# Whom a memo names

The memo of a transfer is the template with the first `{{player}}` replaced by
the player's name. Different names are written differently, so the memos of
two players differ exactly when the template has a placeholder to replace.
-/

namespace GameRewards

-- ---------------------------------------------------------------------------
-- Names are told apart by their letters
-- ---------------------------------------------------------------------------

namespace Name

theorem charOf_inj {i j : UInt8} (hi : i.toNat < 32) (hj : j.toNat < 32)
    (h : charOf i = charOf j) : i = j := by
  have hall : ∀ a b : Fin 32, charOf (UInt8.ofNat a) = charOf (UInt8.ofNat b) → a = b := by decide
  have hsame := hall ⟨i.toNat, hi⟩ ⟨j.toNat, hj⟩ (by simpa using h)
  exact UInt8.toNat_inj.mp (Fin.mk.inj hsame)

theorem top_toNat (v : UInt64) {shift : UInt64} (hshift : shift = 59 ∨ shift = 60) :
    ((v &&& 0xF800000000000000) >>> shift).toUInt8.toNat = v.toNat / 2 ^ shift.toNat := by
  have hlt := v.toNat_lt
  rw [UInt64.toNat_toUInt8, UInt64.toNat_shiftRight, UInt64.toNat_and, Nat.shiftRight_and_distrib]
  rcases hshift with rfl | rfl
  · have hmask : (0xF800000000000000 : UInt64).toNat >>> 59 = 2 ^ 5 - 1 := by decide
    simp only [UInt64.reduceToNat, Nat.reduceMod] at hmask ⊢
    rw [hmask, Nat.and_two_pow_sub_one_eq_mod, Nat.shiftRight_eq_div_pow]
    omega
  · have hmask : (0xF800000000000000 : UInt64).toNat >>> 60 = 2 ^ 4 - 1 := by decide
    simp only [UInt64.reduceToNat, Nat.reduceMod] at hmask ⊢
    rw [hmask, Nat.and_two_pow_sub_one_eq_mod, Nat.shiftRight_eq_div_pow]
    omega

theorem top_inj {shift : UInt64} (hshift : shift = 59 ∨ shift = 60)
    (h : charOf ((u &&& 0xF800000000000000) >>> shift).toUInt8 =
      charOf ((v &&& 0xF800000000000000) >>> shift).toUInt8) :
    u.toNat / 2 ^ shift.toNat = v.toNat / 2 ^ shift.toNat := by
  have hbound : ∀ w : UInt64, ((w &&& 0xF800000000000000) >>> shift).toUInt8.toNat < 32 := by
    intro w
    have hlt := w.toNat_lt
    rw [top_toNat w hshift]
    rcases hshift with rfl | rfl <;> simp only [UInt64.reduceToNat] <;> omega
  rw [← top_toNat u hshift, ← top_toNat v hshift, charOf_inj (hbound u) (hbound v) h]

theorem toNat_shiftLeft_five (v : UInt64) : (v <<< 5).toNat = v.toNat * 32 % 2 ^ 64 := by
  simp [UInt64.toNat_shiftLeft, Nat.shiftLeft_eq]

theorem digits_eq_nil_iff : digits (n + 1) v = digits (n + 1) 0 ↔ v = 0 := by
  by_cases h : v = 0 <;> simp [digits, h]

theorem dvd_shiftLeft_five {v : UInt64} (hn : n + 1 ≤ 13) (hpos : n ≠ 0)
    (h : 2 ^ (65 - 5 * (n + 1)) ∣ v.toNat) : 2 ^ (65 - 5 * n) ∣ (v <<< 5).toNat := by
  rw [toNat_shiftLeft_five, Nat.dvd_mod_iff (Nat.pow_dvd_pow 2 (by omega))]
  have hpow : 65 - 5 * n = 65 - 5 * (n + 1) + 5 := by omega
  rw [hpow, Nat.pow_add]
  exact Nat.mul_dvd_mul h (Nat.dvd_refl _)

/-- Values with nothing below their last `n` digits are told apart by these. -/
theorem digits_inj {u v : UInt64} (hn : n ≤ 13) (hu : 2 ^ (65 - 5 * n) ∣ u.toNat)
    (hv : 2 ^ (65 - 5 * n) ∣ v.toNat) (h : digits n u = digits n v) : u = v := by
  have hult := u.toNat_lt
  have hvlt := v.toNat_lt
  induction n generalizing u v with
  | zero => exact UInt64.toNat_inj.mp (by omega)
  | succ n ih =>
    by_cases hzero : u = 0 ∨ v = 0
    · rcases hzero with rfl | rfl
      · exact (digits_eq_nil_iff.mp h.symm).symm
      · exact digits_eq_nil_iff.mp h
    · obtain ⟨hu0, hv0⟩ := not_or.mp hzero
      rw [digits, if_neg hu0, digits, if_neg hv0] at h
      obtain ⟨hchar, hrest⟩ := List.cons.inj h
      rw [← UInt64.toNat_inj]
      cases n with
      | zero =>
        -- The last digit has four bits, and nothing is below it.
        have hdigit := top_inj (.inr rfl) hchar
        simp only [UInt64.reduceToNat] at hdigit
        omega
      | succ n =>
        have hdigit := top_inj (.inl rfl) hchar
        have hshift := ih (by omega) (dvd_shiftLeft_five hn (by omega) hu)
          (dvd_shiftLeft_five hn (by omega) hv) hrest (UInt64.toNat_lt _) (UInt64.toNat_lt _)
        rw [← UInt64.toNat_inj, toNat_shiftLeft_five, toNat_shiftLeft_five] at hshift
        simp only [UInt64.reduceToNat] at hdigit
        omega

theorem toBytes_inj {a b : Name} (h : a.toBytes = b.toBytes) : a = b :=
  congrArg Name.mk (digits_inj (n := 13) (by decide) (Nat.one_dvd _) (Nat.one_dvd _) h)

end Name

-- ---------------------------------------------------------------------------
-- Templates
-- ---------------------------------------------------------------------------

theorem Bytes.find_isSome_iff {needle s : Bytes} :
    (Bytes.find needle s).isSome = true ↔ needle <:+: s := by
  induction s with
  | nil =>
    unfold Bytes.find
    cases needle <;> simp
  | cons b rest ih =>
    unfold Bytes.find
    rw [List.infix_cons_iff, ← ih, ← List.isPrefixOf_iff_prefix]
    split <;> rename_i h <;> simp [h]

theorem memoFor_ne_iff (h : player ≠ player') :
    memoFor memoTemplate player ≠ memoFor memoTemplate player' ↔ placeholder <:+: memoTemplate := by
  rw [← Bytes.find_isSome_iff]
  unfold memoFor
  cases Bytes.find placeholder memoTemplate with
  | none => simp
  | some playerPos =>
    simp only [Bytes.replace, ne_eq, List.append_cancel_left_eq, List.append_cancel_right_eq,
      Option.isSome_some, iff_true]
    exact fun hbytes => h (Name.toBytes_inj hbytes)

-- ---------------------------------------------------------------------------
-- The memos of a distribution
-- ---------------------------------------------------------------------------

theorem Settlement.memo {t : Transfer} {i : Nat}
    (h : Settlement env ctx args distConfig players row transfers)
    (hp : row.rewardedPlayers[i]? = some player) (ht : transfers[i]? = some t) :
    t.memo = memoFor distConfig.memoTemplate player := by
  rw [h.transfers_eq, List.getElem?_zipWith, hp] at ht
  cases hr : row.playerRewards[i]? with
  | none => simp [hr] at ht
  | some reward =>
    simp only [hr, Option.some.injEq] at ht
    rw [← ht]
    rfl

/-- The memos of two rewarded players differ exactly when the template contains
the placeholder as the code spells it. -/
theorem memos_differ_iff (env : Env) (ctx : Context) (s : State) (args : DistributeArgs)
    (h : distribute env ctx s args = .ok (s', out)) :
    ∃ distConfig ∈ s.rewarddist.rows, distConfig.gameId = args.gameId ∧
      ∃ row, s'.rewardsrec.rows = s.rewardsrec.rows ++ [row] ∧
        ∀ (i j : Nat) (player player' : Name) (t t' : Transfer),
          row.rewardedPlayers[i]? = some player → row.rewardedPlayers[j]? = some player' →
          out[i]? = some t → out[j]? = some t' → player ≠ player' →
          (t.memo ≠ t'.memo ↔ placeholder <:+: distConfig.memoTemplate) := by
  obtain ⟨_, _, distConfig, row, hd⟩ := distribute_ok h
  refine ⟨distConfig, hd.dist_mem, hd.dist_game, row, hd.rewards_rows, ?_⟩
  intro i j player player' t t' hp hp' ht ht' hne
  rw [hd.settlement.memo hp ht, hd.settlement.memo hp' ht']
  exact memoFor_ne_iff hne

def Sample.announced (memoTemplate : Bytes) : List Action :=
  Sample.setup 1000 1000 100 ++ [
    Sample.block 1001 (.setdistconf ⟨1, ⟨5⟩, memoTemplate, false⟩),
    Sample.block 1050 (.recordgame [Sample.result 10 50 1010, Sample.result 11 40 1020])]

theorem announced_memos_differ :
    ∃ (s' : State) (out : List Transfer),
      ∃ distConfig ∈ (run Sample.env (Sample.announced placeholder)).rewarddist.rows,
        distConfig.gameId = 1 ∧
        ∃ row, s'.rewardsrec.rows =
            (run Sample.env (Sample.announced placeholder)).rewardsrec.rows ++ [row] ∧
          ∀ (i j : Nat) (player player' : Name) (t t' : Transfer),
            row.rewardedPlayers[i]? = some player → row.rewardedPlayers[j]? = some player' →
            out[i]? = some t → out[j]? = some t' → player ≠ player' →
            (t.memo ≠ t'.memo ↔ placeholder <:+: distConfig.memoTemplate) :=
  ⟨_, _, memos_differ_iff Sample.env (Sample.context 1100)
    (run Sample.env (Sample.announced placeholder)) (Sample.payout 1 [60, 40]) rfl⟩

/-- The template of the documentation, with single braces:
`deposit boid_id={player}`. -/
def Sample.documented : Bytes :=
  [100, 101, 112, 111, 115, 105, 116, 32, 98, 111, 105, 100, 95, 105, 100, 61,
    123, 112, 108, 97, 121, 101, 114, 125]

theorem documented_memos_equal :
    ¬ ∀ (env : Env) (actions : List Action) (ctx : Context) (args : DistributeArgs) (s' : State)
      (out : List Transfer) (distConfig : RewardDistConfig) (row : RewardsRecorded) (i j : Nat)
      (player player' : Name) (t t' : Transfer),
      distribute env ctx (run env actions) args = .ok (s', out) →
      distConfig ∈ (run env actions).rewarddist.rows → distConfig.gameId = args.gameId →
      distConfig.useDirectTransfer = false →
      s'.rewardsrec.rows = (run env actions).rewardsrec.rows ++ [row] →
      row.rewardedPlayers[i]? = some player → row.rewardedPlayers[j]? = some player' →
      out[i]? = some t → out[j]? = some t' → player ≠ player' →
      t.memo ≠ t'.memo := by
  intro h
  exact h Sample.env (Sample.announced Sample.documented) (Sample.context 1100)
    (Sample.payout 1 [60, 40]) _ _ ⟨1, ⟨5⟩, Sample.documented, false⟩
    ⟨0, 1, 1, Sample.kills, ⟨1000000, Sample.boid⟩, [⟨10⟩, ⟨11⟩],
      [⟨600000, Sample.boid⟩, ⟨400000, Sample.boid⟩], 1100⟩ 0 1 ⟨10⟩ ⟨11⟩ _ _
    rfl (by decide) rfl rfl rfl rfl rfl rfl rfl (by decide) rfl

end GameRewards
