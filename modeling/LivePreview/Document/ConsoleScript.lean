namespace LivePreview.Document

def consoleScriptLines : List String := [
  "// Guest logging shim. Runs before any library so that every console call and",
  "// uncaught error reaches the host bridge. Uncaught errors are swallowed: noisy",
  "// third-party code must not blank the preview.",
  "(function (global) \x7b",
  "  'use strict';",
  "",
  "  function post(msg) \x7b",
  "    try \x7b",
  "      if (global.parent && global.parent !== global) \x7b",
  "        global.parent.postMessage(\x7b __lantern: msg \x7d, '*');",
  "      \x7d",
  "    \x7d catch (_) \x7b",
  "      // bridge unavailable; nothing else to do from inside the guest",
  "    \x7d",
  "  \x7d",
  "",
  "  function describe(value) \x7b",
  "    if (value instanceof Error) return value.stack || value.message;",
  "    if (value !== null && typeof value === 'object') \x7b",
  "      try \x7b return JSON.stringify(value); \x7d catch (_) \x7b return String(value); \x7d",
  "    \x7d",
  "    return String(value);",
  "  \x7d",
  "",
  "  function format(args) \x7b",
  "    return Array.prototype.map.call(args, describe).join(' ');",
  "  \x7d",
  "",
  "  global.__lantern = \x7b",
  "    post: post,",
  "    log: function (level, text) \x7b",
  "      post(\x7b kind: 'bridge', channel: 'log', payload: '[' + level + '] ' + text \x7d);",
  "    \x7d,",
  "    mountFailed: function (message) \x7b",
  "      post(\x7b kind: 'mount-failed', error: String(message) \x7d);",
  "    \x7d",
  "  \x7d;",
  "",
  "  ['log', 'info', 'warn', 'error', 'debug'].forEach(function (level) \x7b",
  "    var original = typeof console[level] === 'function' ? console[level].bind(console) : function () \x7b\x7d;",
  "    console[level] = function () \x7b",
  "      original.apply(null, arguments);",
  "      global.__lantern.log(level, format(arguments));",
  "    \x7d;",
  "  \x7d);",
  "",
  "  global.addEventListener('error', function (event) \x7b",
  "    var target = event.target;",
  "    if (target && target !== global && (target.src || target.href)) \x7b",
  "      global.__lantern.log('resource', 'failed to load ' + (target.src || target.href));",
  "      return;",
  "    \x7d",
  "    var detail = (event.error && event.error.stack) || event.message || 'Script error';",
  "    global.__lantern.log('uncaught', detail);",
  "    event.preventDefault();",
  "  \x7d, true);",
  "",
  "  global.addEventListener('unhandledrejection', function (event) \x7b",
  "    var reason = event.reason;",
  "    global.__lantern.log('unhandledrejection', (reason && (reason.stack || reason.message)) || String(reason));",
  "    event.preventDefault();",
  "  \x7d);",
  "\x7d)(window);",
  ""]

def consoleScript : String :=
  "\n".intercalate consoleScriptLines

end LivePreview.Document
