/-
  SessionLog/Text/Cap.lean
  ========================
  **Free text capped at a number of characters.**
-/
namespace SessionLog.Text

/-- The text itself if it has at most `limit` characters, else its first `limit`
    characters and three dots. -/
def cap (limit : Nat) (text : String) : String :=
  if text.length ≤ limit then text
  else String.ofList (text.toList.take limit) ++ "..."

end SessionLog.Text
