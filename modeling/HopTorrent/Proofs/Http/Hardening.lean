import HopTorrent.Proofs.Http.Allowance

/-!
# Proofs/Http/Hardening — which responses are hardened

A hardened response has each of nine fields once, with its value, and none that tells what serves it
(`Response.IsHardened`).  What is hardened stays so on its way out, as only other fields are set
there.  A preflight request is answered outside the hardening: the responses to all other requests
are hardened, whatever they are, and those to preflight requests are not (`handle_isHardened_iff`).
-/

namespace HopTorrent

namespace Http

variable {σ : Type} {r : Response} {name value : String} {fs : Headers}

/-! ## The values of a field -/

/-- All values of a field. -/
def Response.values (r : Response) (name : String) : List String :=
  (r.headers.filter fun h => h.1 = name).map Prod.snd

theorem Response.values_withHeader_self (r : Response) (name value : String) :
    (r.withHeader name value).values name = [value] := by
  simp [values, withHeader, List.filter_filter]

theorem Response.values_withoutHeader_self (r : Response) (name : String) :
    (r.withoutHeader name).values name = [] := by
  simp [values, withoutHeader, List.filter_filter]

/-- Of a field that is not taken away nothing is. -/
theorem Response.values_withoutHeader {n : String} (h : n ≠ name) (r : Response) :
    (r.withoutHeader name).values n = r.values n := by
  rw [values, withoutHeader, List.filter_filter, values]
  congr 1
  refine List.filter_congr fun f _ => ?_
  by_cases hf : f.1 = n
  · simp [hf, h]
  · simp [hf]

/-- A field that is not set keeps its values. -/
theorem Response.values_withHeader {n : String} (h : n ≠ name) (r : Response) (value : String) :
    (r.withHeader name value).values n = r.values n := by
  have hlast : ([(name, value)].filter fun f => f.1 = n) = [] := by simp [Ne.symm h]
  rw [← values_withoutHeader h r, values, withHeader, List.filter_append, hlast, List.append_nil]
  rfl

/-- Fields that are not set keep their values. -/
theorem values_foldl_of_not_mem (h : name ∉ fs.map Prod.fst) (r : Response) :
    (fs.foldl (fun r h => r.withHeader h.1 h.2) r).values name = r.values name := by
  induction fs generalizing r with
  | nil => rfl
  | cons f fs ih =>
    rw [List.map_cons, List.mem_cons, not_or] at h
    rw [List.foldl_cons, ih h.2, Response.values_withHeader h.1]

/-- Each of some fields that are set has the value it was set to. -/
theorem values_foldl_of_mem (hn : (fs.map Prod.fst).Nodup) (h : (name, value) ∈ fs)
    (r : Response) : (fs.foldl (fun r h => r.withHeader h.1 h.2) r).values name = [value] := by
  induction fs generalizing r with
  | nil => cases h
  | cons f fs ih =>
    rw [List.map_cons, List.nodup_cons] at hn
    rw [List.foldl_cons]
    obtain rfl | h := List.mem_cons.mp h
    · rw [values_foldl_of_not_mem hn.1, Response.values_withHeader_self]
    · exact ih hn.2 h _

/-! ## Hardened responses -/

/-- **A hardened response**: each of the nine fields is there once with its value, and none that
tells what serves it. -/
structure Response.IsHardened (r : Response) : Prop where
  cacheControl : r.values "cache-control"
    = ["no-store, no-cache, must-revalidate, private, max-age=0"]
  pragma : r.values "pragma" = ["no-cache"]
  expires : r.values "expires" = ["0"]
  contentTypeOptions : r.values "x-content-type-options" = ["nosniff"]
  frameOptions : r.values "x-frame-options" = ["DENY"]
  xssProtection : r.values "x-xss-protection" = ["0"]
  referrerPolicy : r.values "referrer-policy" = ["no-referrer"]
  permissionsPolicy : r.values "permissions-policy" =
    ["geolocation=(), microphone=(), camera=(), payment=(), usb=(), magnetometer=(), gyroscope=()"]
  contentSecurityPolicy : r.values "content-security-policy"
    = ["default-src 'none'; script-src 'self'; connect-src 'self'; img-src 'self' data:; "
        ++ "style-src 'self' 'unsafe-inline';"]
  server : r.values "server" = []
  poweredBy : r.values "x-powered-by" = []

/-- A response with the fields of the hardening, and without those that tell what serves it. -/
theorem Response.isHardened_of (hf : ∀ f ∈ hardening, r.values f.1 = [f.2])
    (hs : r.values "server" = []) (hp : r.values "x-powered-by" = []) : r.IsHardened := by
  simp only [hardening, List.forall_mem_cons] at hf
  obtain ⟨hcache, hpragma, hexpires, htype, hframe, hxss, hreferrer, hfeatures, hcontent, -⟩ := hf
  exact ⟨hcache, hpragma, hexpires, htype, hframe, hxss, hreferrer, hfeatures, hcontent, hs, hp⟩

theorem values_hardened {f : String × String} (h : f ∈ hardening) (r : Response) :
    (hardened r).values f.1 = [f.2] := by
  -- The two fields that are taken away afterwards are none of the hardening.
  have hkept : ∀ f ∈ hardening, f.1 ≠ "x-powered-by" ∧ f.1 ≠ "server" := by decide
  obtain ⟨hp, hs⟩ := hkept f h
  rw [hardened, Response.values_withoutHeader hp, Response.values_withoutHeader hs]
  exact values_foldl_of_mem (by decide) h r

theorem values_server_hardened (r : Response) : (hardened r).values "server" = [] := by
  rw [hardened, Response.values_withoutHeader (by decide), Response.values_withoutHeader_self]

theorem values_poweredBy_hardened (r : Response) : (hardened r).values "x-powered-by" = [] :=
  Response.values_withoutHeader_self _ _

/-! ## On the way out -/

theorem values_withAllow (h : name ≠ "allow") (route : Option Route) (method : String)
    (r : Response) : (withAllow route method r).values name = r.values name := by
  cases route with
  | none => rfl
  | some route =>
    rw [withAllow]
    split
    · rfl
    · exact Response.values_withHeader h r _

theorem values_sent (h : name ≠ "content-length") (method : String) (r : Response) :
    (sent method r).values name = r.values name := by
  rw [sent]
  split
  · exact Response.values_withHeader h r _
  · exact Response.values_withHeader h r _

namespace Service

variable {b : Backend σ} {now : Int} {req : Request} {s : Service σ}

/-- Fields that are not set on the way out keep the values that the hardening left. -/
theorem values_outward (hl : name ≠ "content-length") (ha : name ≠ "allow")
    (hs : name ∉ sharing.map Prod.fst) (req : Request) (r : Response) :
    (outward req r).values name = (hardened r).values name := by
  rw [outward, values_sent hl, values_withAllow ha]
  exact values_foldl_of_not_mem hs _

/-- **What is hardened stays so on its way out.** -/
theorem outward_isHardened (req : Request) (r : Response) : (outward req r).IsHardened := by
  have hother : ∀ f ∈ hardening,
      f.1 ≠ "content-length" ∧ f.1 ≠ "allow" ∧ f.1 ∉ sharing.map Prod.fst := by decide
  refine Response.isHardened_of (fun f hf => ?_) ?_ ?_
  · obtain ⟨hl, ha, hs⟩ := hother f hf
    rw [values_outward hl ha hs, values_hardened hf]
  · rw [values_outward (by decide) (by decide) (by decide), values_server_hardened]
  · rw [values_outward (by decide) (by decide) (by decide), values_poweredBy_hardened]

/-- The answer to a preflight request may be kept by caches. -/
theorem values_pragma_preflight (ho : req.method = "OPTIONS") :
    ((handle b now req).run s).1.values "pragma" = [] := by
  rw [run_preflight ho, values_sent (by decide), values_withAllow (by decide)]
  decide

/-- **A response is hardened unless it answers a preflight request.** -/
theorem handle_isHardened_iff (b : Backend σ) (now : Int) (req : Request) (s : Service σ) :
    ((handle b now req).run s).1.IsHardened ↔ req.method ≠ "OPTIONS" := by
  constructor
  · intro h ho
    cases h.pragma.symm.trans (values_pragma_preflight ho)
  · intro ho
    rw [run_handle ho]
    exact outward_isHardened req _

/-- A preflight request for the transfers. -/
def preflightRequest : Request := ⟨"OPTIONS", "/api/torrents", [], []⟩

/-- **There are responses that are not hardened.** -/
theorem not_forall_isHardened :
    ¬ ∀ (σ : Type) (b : Backend σ) (now : Int) (req : Request) (s : Service σ),
      ((handle b now req).run s).1.IsHardened := by
  intro h
  have hp := (h Registry overRegistry 0 preflightRequest (.fresh [] (.ofPolicy .standard))).pragma
  cases hp.symm.trans (values_pragma_preflight rfl)

end Service

end Http

end HopTorrent
