import HempCore.Model.RPCAuth

/-!
# Each source is locked out for its own failures

The lockout rule of one source, stated on its own requests, against the shared map. An entry that the
cleanup takes out says nothing any more: its window or its ban is over, and the clock does not go
back.
-/

set_option autoImplicit false

namespace HempCore

variable {σ : Type} [DecidableEq σ] {o : RPCAuthOptions} {req : RPCRequest σ}

/-! ## The rule -/

/-- A source's counting window, as its opening and the failures in it, and the latest failure that
was at least the allowed number of them. -/
structure SourceHistory where
  window : Option (Int × Nat) := none
  locked : Option Int := none

namespace SourceHistory

/-- The window at a time: it closes after its length, and when a ban that began in it is over. -/
def openWindow (o : RPCAuthOptions) (h : SourceHistory) (t : Int) : Option (Int × Nat) :=
  h.window.filter fun w =>
    decide (t - w.1 < o.windowMs ∧ ∀ t₀ ∈ h.locked, w.1 ≤ t₀ → t < t₀ + o.banMs)

def Banned (o : RPCAuthOptions) (h : SourceHistory) (t : Int) : Prop :=
  ∃ t₀, h.locked = some t₀ ∧ t₀ ≤ t ∧ t < t₀ + o.banMs

instance (o : RPCAuthOptions) (h : SourceHistory) (t : Int) : Decidable (h.Banned o t) :=
  match hl : h.locked with
  | none => isFalse (by rintro ⟨t₀, heq, -⟩; rw [hl] at heq; cases heq)
  | some t₀ =>
    decidable_of_iff (t₀ ≤ t ∧ t < t₀ + o.banMs)
      ⟨fun ht => ⟨t₀, hl, ht⟩, fun ⟨t₁, heq, ht⟩ => by
        rw [hl] at heq
        exact Option.some.inj heq ▸ ht⟩

/-- A failure opens a window when none is open, and counts. -/
def fail (o : RPCAuthOptions) (h : SourceHistory) (t : Int) : SourceHistory :=
  let w := match h.openWindow o t with
    | some (start, n) => (start, n + 1)
    | none => (t, 1)
  { window := some w, locked := if o.maxFailures ≤ w.2 then some t else h.locked }

/-- A request of the source itself; a login closes the window. -/
def request (o : RPCAuthOptions) (h : SourceHistory) (req : RPCRequest σ) : SourceHistory :=
  if h.Banned o req.time then h
  else
    match req.credentials with
    | .noHeader => h
    | .right => { h with window := none }
    | .wrong recorded => h.fail o recorded

end SourceHistory

/-- The rule applied to the requests of one source. -/
def historyOf (o : RPCAuthOptions) (s : σ) (reqs : List (RPCRequest σ)) : SourceHistory :=
  (reqs.filter fun req => req.source = s).foldl (SourceHistory.request o) {}

/-- The clock is positive and does not go back, from one reading to the next. -/
def RPCRequest.ends (req : RPCRequest σ) : Int :=
  match req.credentials with
  | .wrong recorded => recorded
  | _ => req.time

def Timed : Int → List (RPCRequest σ) → Prop
  | _, [] => True
  | now, req :: reqs => now ≤ req.time ∧ req.time ≤ req.ends ∧ Timed req.ends reqs

/-! ## An entry of the map -/

/-- What an entry says of its source from a time on. A missing entry says that no window is open and
no ban is left; an entry without a ban, that its window was opened after the last one. -/
def Follows (o : RPCAuthOptions) (now : Int) (h : SourceHistory) : Option RPCAuthFailureState → Prop
  | none => (∀ t₀ ∈ h.locked, t₀ + o.banMs ≤ now) ∧ ∀ t, now ≤ t → h.openWindow o t = none
  | some e =>
    ∃ n : Nat, h.window = some (e.windowStart, n) ∧ e.count = n ∧ 0 < e.windowStart ∧
      e.windowStart ≤ now ∧
      (e.banUntil = 0 ∧ (∀ t₀ ∈ h.locked, t₀ + o.banMs ≤ e.windowStart) ∨
        ∃ t₀, h.locked = some t₀ ∧ e.banUntil = t₀ + o.banMs ∧ e.windowStart ≤ t₀ ∧ t₀ ≤ now)

variable {now t : Int} {h : SourceHistory} {entry : Option RPCAuthFailureState}

theorem RPCAuthOptions.windowMs_pos (o : RPCAuthOptions) : 0 < o.windowMs := by
  unfold windowMs DEFAULT_RPC_AUTH_FAILURE_WINDOW
  split_ifs <;> omega

theorem RPCAuthOptions.banMs_pos (o : RPCAuthOptions) : 0 < o.banMs := by
  unfold banMs DEFAULT_RPC_AUTH_FAILURE_BAN
  split_ifs <;> omega

theorem SourceHistory.openWindow_eq_none {start : Int} {n : Nat} (hw : h.window = some (start, n))
    (hclosed : o.windowMs ≤ t - start ∨ ∃ t₀ ∈ h.locked, start ≤ t₀ ∧ t₀ + o.banMs ≤ t) : h.openWindow o t = none := by
  rw [openWindow, hw, Option.filter_some, if_neg]
  simp only [decide_eq_true_eq, not_and, not_forall]
  intro hlt
  rcases hclosed with hlong | ⟨t₀, hmem, hstart, hover⟩
  · omega
  · exact ⟨t₀, hmem, hstart, by omega⟩

theorem follows_initial (now : Int) : Follows o now {} none := by
  constructor
  · intro t₀ ht₀
    cases ht₀
  · intro t _
    rfl

theorem Follows.mono (hf : Follows o now h entry) (hle : now ≤ t) : Follows o t h entry := by
  cases entry with
  | none =>
    exact ⟨fun t₀ ht₀ => (hf.1 t₀ ht₀).trans hle, fun t' ht' => hf.2 t' (hle.trans ht')⟩
  | some e =>
    obtain ⟨n, hw, hcount, hpos, hstart, hban⟩ := hf
    refine ⟨n, hw, hcount, hpos, hstart.trans hle, ?_⟩
    rcases hban with hnone | ⟨t₀, hlocked, huntil, hfrom, hnow⟩
    · exact .inl hnone
    · exact .inr ⟨t₀, hlocked, huntil, hfrom, hnow.trans hle⟩

theorem Follows.of_isExpired {e : RPCAuthFailureState} (hf : Follows o now h (some e))
    (he : e.isExpired o now = true) : Follows o now h none := by
  obtain ⟨n, hw, -, hpos, hstart, hban⟩ := hf
  simp only [RPCAuthFailureState.isExpired, Bool.or_eq_true, decide_eq_true_eq] at he
  rcases hban with ⟨hnone, hlocked⟩ | ⟨t₀, hlocked, huntil, hfrom, hnow⟩
  · -- no ban: the window is over
    refine ⟨fun t₀ ht₀ => (hlocked t₀ ht₀).trans hstart, fun t ht => ?_⟩
    apply SourceHistory.openWindow_eq_none hw
    left
    omega
  · have hover : t₀ + o.banMs ≤ now := by
      have := o.banMs_pos
      omega
    refine ⟨fun t₁ ht₁ => ?_, fun t ht => ?_⟩
    · rw [hlocked] at ht₁
      rwa [← Option.some.inj ht₁]
    · apply SourceHistory.openWindow_eq_none hw
      exact .inr ⟨t₀, hlocked, hfrom, hover.trans ht⟩

theorem Follows.cleanup (hf : Follows o now h entry) : Follows o now h (entry.filter fun e => !e.isExpired o now) := by
  cases entry with
  | none => exact hf
  | some e =>
    rw [Option.filter_some]
    split_ifs with he
    · exact hf
    · exact hf.of_isExpired (by simpa using he)

/-- No window is counted into while the source is banned. -/
def Unlocked : Option RPCAuthFailureState → Prop
  | none => True
  | some e => e.banUntil = 0

theorem Follows.ban_over (hf : Follows o now h entry) (hunlocked : Unlocked entry) : ∀ t₀ ∈ h.locked, t₀ + o.banMs ≤ now := by
  cases entry with
  | none => exact hf.1
  | some e =>
    have hnone : e.banUntil = 0 := hunlocked
    obtain ⟨n, -, -, hpos, hstart, ⟨-, hlocked⟩ | ⟨t₀, -, huntil, hfrom, -⟩⟩ := hf
    · exact fun t₀ ht₀ => (hlocked t₀ ht₀).trans hstart
    · have hban := o.banMs_pos
      omega

theorem SourceHistory.not_banned (hover : ∀ t₀ ∈ h.locked, t₀ + o.banMs ≤ t) : ¬h.Banned o t := by
  rintro ⟨t₀, hlocked, -, hlt⟩
  have hle := hover t₀ hlocked
  omega

/-- A banned source is refused and its entry stays; otherwise the source has no ban left. -/
theorem Follows.throttled {mapAuthFailures : AuthFailures σ} {s : σ} (hm : 0 < o.maxFailures)
    (hf : Follows o now h (mapAuthFailures s)) (ht : now ≤ t) :
    (h.Banned o t ∧ rpcAuthThrottled o mapAuthFailures s t = (true, mapAuthFailures)) ∨
    (¬h.Banned o t ∧ ∃ map', rpcAuthThrottled o mapAuthFailures s t = (false, map') ∧
      Follows o t h (map' s) ∧ Unlocked (map' s)) := by
  have hban := o.banMs_pos
  have hf' := hf.mono ht
  rw [rpcAuthThrottled, if_neg (by omega)]
  cases hentry : mapAuthFailures s with
  | none =>
    rw [hentry] at hf'
    refine .inr ⟨SourceHistory.not_banned hf'.1, mapAuthFailures, rfl, ?_, ?_⟩
    · rwa [hentry]
    · rw [hentry]
      trivial
  | some e =>
    rw [hentry] at hf'
    by_cases hnone : e.banUntil = 0
    · refine .inr ⟨SourceHistory.not_banned (hf'.ban_over hnone), mapAuthFailures, ?_, ?_, ?_⟩
      · simp [hnone]
      · rwa [hentry]
      · rwa [hentry]
    have ⟨n, _, _, hpos, _, hlock⟩ := hf'
    obtain ⟨t₀, hlocked, huntil, hfrom, hnow⟩ := hlock.resolve_left fun hl => hnone hl.1
    have hupos : 0 < e.banUntil := by omega
    by_cases hlt : t < e.banUntil
    · exact .inl ⟨⟨t₀, hlocked, hnow, by omega⟩, if_pos ⟨hupos, hlt⟩⟩
    · -- the ban is over and the entry goes
      have hgone : Follows o t h none := hf'.of_isExpired (by
        simp [RPCAuthFailureState.isExpired, hupos, not_lt.mp hlt])
      refine .inr ⟨SourceHistory.not_banned hgone.1, Function.update mapAuthFailures s none, ?_, ?_, ?_⟩
      · simp only
        rw [if_neg (fun h => hlt h.2), if_pos ⟨hupos, not_lt.mp hlt⟩]
      · rwa [Function.update_self]
      · rw [Function.update_self]
        trivial

theorem Follows.fail (hf : Follows o t h entry) (hunlocked : Unlocked entry) (htpos : 0 < t) :
    Follows o t (h.fail o t) (some (((entry.filter fun e => !e.isExpired o t).getD {}).fail o t)) := by
  have hwindow := o.windowMs_pos
  have hban := o.banMs_pos
  cases hfiltered : entry.filter fun e => !e.isExpired o t with
  | none =>
    -- the failure opens a window
    have hnone := hf.cleanup
    rw [hfiltered] at hnone
    have hopen := hnone.2 t le_rfl
    have hentry : (RPCAuthFailureState.fail o t {}) =
        { count := 1, windowStart := t, banUntil := if o.maxFailures ≤ 1 then t + o.banMs else 0 } := by
      simp only [RPCAuthFailureState.fail]
      split_ifs <;> simp_all
    rw [Option.getD_none, hentry]
    refine ⟨1, by simp [SourceHistory.fail, hopen], rfl, htpos, le_rfl, ?_⟩
    by_cases hmax : o.maxFailures ≤ 1
    · refine .inr ⟨t, ?_, if_pos hmax, le_rfl, le_rfl⟩
      simp [SourceHistory.fail, hopen, hmax]
    · refine .inl ⟨if_neg hmax, ?_⟩
      simpa [SourceHistory.fail, hopen, hmax] using hnone.1
  | some e =>
    obtain ⟨rfl, hfresh⟩ := Option.filter_eq_some_iff.mp hfiltered
    have hnone : e.banUntil = 0 := hunlocked
    obtain ⟨n, hw, hcount, hpos, hstart, ⟨-, hlocked⟩ | ⟨t₀, -, huntil, hfrom, -⟩⟩ := hf
    swap
    · omega
    have hlt : t - e.windowStart < o.windowMs := by
      simp [RPCAuthFailureState.isExpired, hnone, hpos] at hfresh
      omega
    have hopen : h.openWindow o t = some (e.windowStart, n) := by
      rw [SourceHistory.openWindow, hw, Option.filter_some, if_pos]
      simp only [decide_eq_true_eq]
      refine ⟨hlt, fun t₀ ht₀ hle => ?_⟩
      have hover := hlocked t₀ ht₀
      omega
    have hentry : e.fail o t =
        { count := n + 1, windowStart := e.windowStart,
          banUntil := if o.maxFailures ≤ n + 1 then t + o.banMs else 0 } := by
      have hgoing : ¬(0 < e.windowStart ∧ o.windowMs ≤ t - e.windowStart) := by omega
      simp only [RPCAuthFailureState.fail, if_neg hgoing, if_neg hpos.ne', hcount, hnone]
      split_ifs <;> rfl
    rw [Option.getD_some, hentry]
    refine ⟨n + 1, by simp [SourceHistory.fail, hopen], by simp, hpos, hstart, ?_⟩
    by_cases hmax : o.maxFailures ≤ n + 1
    · refine .inr ⟨t, ?_, if_pos hmax, hstart, le_rfl⟩
      simp [SourceHistory.fail, hopen, hmax]
    · refine .inl ⟨if_neg hmax, ?_⟩
      simpa [SourceHistory.fail, hopen, hmax] using hlocked

/-! ## Requests -/

theorem rpcAuthThrottled_of_ne {s j : σ} (mapAuthFailures : AuthFailures σ) (hj : j ≠ s) :
    (rpcAuthThrottled o mapAuthFailures s t).2 j = mapAuthFailures j := by
  unfold rpcAuthThrottled
  split_ifs with hoff
  · rfl
  split
  · rfl
  · split_ifs
    · rfl
    · exact Function.update_of_ne hj ..
    · rfl

theorem httpReqJSONRPC_of_ne {j : σ} (mapAuthFailures : AuthFailures σ) (req : RPCRequest σ) (hj : j ≠ req.source) :
    (httpReqJSONRPC o mapAuthFailures req).2 j = mapAuthFailures j ∨
    (httpReqJSONRPC o mapAuthFailures req).2 j = (mapAuthFailures j).filter fun e => !e.isExpired o req.ends := by
  have hframe := rpcAuthThrottled_of_ne (o := o) (t := req.time) mapAuthFailures hj
  unfold httpReqJSONRPC
  generalize rpcAuthThrottled o mapAuthFailures req.source req.time = answer at hframe
  obtain ⟨throttled, map'⟩ := answer
  dsimp only at hframe ⊢
  split_ifs with hthrottled
  · exact .inl hframe
  cases hc : req.credentials with
  | noHeader => exact .inl hframe
  | right => exact .inl ((Function.update_of_ne hj ..).trans hframe)
  | wrong recorded =>
    dsimp only [rpcAuthRecordFailure]
    split_ifs with hoff
    · exact .inl hframe
    · right
      rw [Function.update_of_ne hj, HempCore.cleanup, hframe, RPCRequest.ends, hc]

/-- A request of any source: the rule is applied to the source's own history. -/
theorem Follows.request {mapAuthFailures : AuthFailures σ} {s : σ}
    (hm : 0 < o.maxFailures) (hpos : 0 < now) (hf : Follows o now h (mapAuthFailures s))
    (htime : now ≤ req.time) (hends : req.time ≤ req.ends) :
    Follows o req.ends (if req.source = s then h.request o req else h) ((httpReqJSONRPC o mapAuthFailures req).2 s) := by
  by_cases hs : req.source = s
  swap
  · rw [if_neg hs]
    have hlater := hf.mono (htime.trans hends)
    rcases httpReqJSONRPC_of_ne (o := o) mapAuthFailures req (Ne.symm hs) with heq | heq
    · rwa [heq]
    · rw [heq]
      exact hlater.cleanup
  subst hs
  rw [if_pos rfl, SourceHistory.request, httpReqJSONRPC]
  rcases hf.throttled hm htime with ⟨hbanned, heq⟩ | ⟨hfree, map', heq, hf', hunlocked⟩
  · rw [if_pos hbanned, heq]
    exact hf.mono (htime.trans hends)
  rw [if_neg hfree, heq]
  cases hc : req.credentials with
  | noHeader => exact hf'.mono hends
  | right =>
    -- the entry had no ban, so what is left of the last one is over
    show Follows o req.ends { h with window := none } (Function.update map' req.source none req.source)
    rw [Function.update_self]
    exact ⟨fun t₀ ht₀ => (hf'.ban_over hunlocked t₀ ht₀).trans hends, fun t _ => rfl⟩
  | wrong recorded =>
    have hends' : req.ends = recorded := by rw [RPCRequest.ends, hc]
    rw [hends'] at hends ⊢
    show Follows o recorded (h.fail o recorded) (rpcAuthRecordFailure o map' req.source recorded req.source)
    rw [rpcAuthRecordFailure, if_neg (not_le.mpr hm), Function.update_self]
    exact (hf'.mono hends).fail hunlocked (by omega)

/-! ## Runs -/

omit [DecidableEq σ] in
theorem Timed.pos {reqs : List (RPCRequest σ)} (hpos : 0 < now) (ht : Timed now (req :: reqs)) : 0 < req.ends := by
  have htime := ht.1
  have hends := ht.2.1
  omega

theorem follows_foldl {s : σ} (hm : 0 < o.maxFailures) :
    ∀ (reqs : List (RPCRequest σ)) (now : Int) (h : SourceHistory) (mapAuthFailures : AuthFailures σ),
      0 < now → Timed now (reqs ++ [req]) → Follows o now h (mapAuthFailures s) →
      Follows o req.time ((reqs.filter fun r => r.source = s).foldl (SourceHistory.request o) h)
        (reqs.foldl (fun m r => (httpReqJSONRPC o m r).2) mapAuthFailures s) := by
  intro reqs
  induction reqs with
  | nil =>
    intro now h mapAuthFailures _ ht hf
    exact hf.mono ht.1
  | cons r reqs ih =>
    intro now h mapAuthFailures hpos ht hf
    have hstep := hf.request hm hpos ht.1 ht.2.1
    have hrest := ih r.ends _ _ (Timed.pos hpos ht) ht.2.2 hstep
    rw [List.foldl_cons, List.filter_cons]
    by_cases hs : r.source = s
    · rw [if_pos hs] at hrest
      rwa [if_pos (by simpa using hs), List.foldl_cons]
    · rw [if_neg hs] at hrest
      rwa [if_neg (by simpa using hs)]

theorem throttled_iff_banned (hm : 0 < o.maxFailures) {reqs : List (RPCRequest σ)} (ht : Timed 1 (reqs ++ [req])) :
    (rpcAuthThrottled o (handleRequests o reqs) req.source req.time).1 = true ↔
      (historyOf o req.source reqs).Banned o req.time := by
  have hf : Follows o req.time (historyOf o req.source reqs) (handleRequests o reqs req.source) :=
    follows_foldl hm reqs 1 {} (fun _ => none) one_pos ht (follows_initial 1)
  rcases hf.throttled hm le_rfl with ⟨hbanned, heq⟩ | ⟨hfree, map', heq, -, -⟩
  · rw [heq]
    exact iff_of_true rfl hbanned
  · rw [heq]
    exact iff_of_false Bool.false_ne_true hfree

/-- A source is refused exactly while the rule bans it, and what the other sources do makes no
difference to it. -/
theorem rpcAuthThrottled_exact (o : RPCAuthOptions) (hm : 0 < o.maxFailures)
    (reqs : List (RPCRequest σ)) (req : RPCRequest σ) (ht : Timed 1 (reqs ++ [req])) :
    ((rpcAuthThrottled o (handleRequests o reqs) req.source req.time).1 = true ↔
      (historyOf o req.source reqs).Banned o req.time) ∧
    ∀ reqs' : List (RPCRequest σ), Timed 1 (reqs' ++ [req]) →
      (reqs'.filter fun r => r.source = req.source) = reqs.filter (fun r => r.source = req.source) →
      (rpcAuthThrottled o (handleRequests o reqs') req.source req.time).1 =
        (rpcAuthThrottled o (handleRequests o reqs) req.source req.time).1 := by
  refine ⟨throttled_iff_banned hm ht, fun reqs' ht' hsame => ?_⟩
  rw [Bool.eq_iff_iff, throttled_iff_banned hm ht', throttled_iff_banned hm ht, historyOf, hsame,
    historyOf]

def guessing : List (RPCRequest Nat) :=
  [⟨7, 10, .wrong 260⟩, ⟨8, 300, .wrong 550⟩, ⟨7, 600, .wrong 850⟩]

theorem guessing_refused :
    (rpcAuthThrottled ⟨2, 300, 600⟩ (handleRequests ⟨2, 300, 600⟩ guessing) 7 900).1 = true :=
  (rpcAuthThrottled_exact ⟨2, 300, 600⟩ (by decide) guessing ⟨7, 900, .right⟩
    (by simp [guessing, Timed, RPCRequest.ends])).1.mpr (by decide)

end HempCore
