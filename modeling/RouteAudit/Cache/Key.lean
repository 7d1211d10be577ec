/-! # Cache keys

A compilation is found again by the text of its key, the base and the pattern with
two colons between them.
-/

namespace RouteAudit

/-- The key of a pattern on a base. -/
def cacheKey (base pattern : String) : String := base ++ "::" ++ pattern

end RouteAudit
