namespace LivePreview.Text

def splitWhere (isSeparator : Char → Bool) : List Char → List (List Char)
  | [] => [[]]
  | c :: cs =>
      if isSeparator c then [] :: splitWhere isSeparator cs
      else
        match splitWhere isSeparator cs with
        | [] => [[c]]
        | part :: parts => (c :: part) :: parts

end LivePreview.Text
