import LivePreview.Data.Api

namespace LivePreview.Document

structure Libraries where
  required : List String :=
    ["react@18.3.1/umd/react.production.min.js",
      "react-dom@18.3.1/umd/react-dom.production.min.js",
      "@babel/standalone@7.24.7/babel.min.js"]
  optional : List String :=
    ["https://cdn.tailwindcss.com",
      "prop-types@15.8.1/prop-types.min.js",
      "recharts@2.12.7/umd/Recharts.js",
      "@remix-run/router@1.16.1/dist/router.umd.min.js",
      "react-router@6.23.1/dist/umd/react-router.production.min.js",
      "react-router-dom@6.23.1/dist/umd/react-router-dom.production.min.js"]
  deriving DecidableEq, Repr

structure Options where
  baseUrl : String := "https://unpkg.com/"
  title : String := "Preview"
  libraries : Libraries := {}
  api : DataApi := {}

end LivePreview.Document
